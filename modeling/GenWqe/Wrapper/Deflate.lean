import GenWqe.Session.DeflateHw
import GenWqe.Wrapper.Dispatch

/-
  The compression side of the wrapper, where `deflateParams`
  may give the stream of the hardware implementation up for a
  software one.

  Key definitions include:
    * `DeflSoftware`, `DeflateLib`, `DeflateWorld`
    * `DeflateMore`, `DeflateWrap`
    * `deflateInit2`, `deflateParams`
    * `DeflWrapOp`, `DeflWrapRun`
-/

------------------------------------------------------------
-- What Lies Below
------------------------------------------------------------

namespace Wrapper

open Zedc Hardware Session

/- What `deflateInit2_` is given. -/
structure DeflateMore where
  level : Int
  method : Int
  windowBits : Int
  memLevel : Int
  strategy : Int

/-
  The software zlib, as far as it is called for compression,
  with the type of its state. Its `deflateEnd` also tells
  whether the state was freed.
-/
structure DeflSoftware (σ : Type) where
  deflateInit2 : DeflateMore → ZStream → Rc × ZStream × σ
  deflateReset : ZStream → σ → Rc × ZStream × σ
  deflateSetDictionary :
    List UInt8 → ZStream → σ → Rc × ZStream × σ
  deflateSetHeader :
    Option GzipHead → ZStream → σ → Rc × ZStream × σ
  deflate : Flush → ZStream → σ → Rc × ZStream × σ
  deflateParams : Int → Int → ZStream → σ → Rc × ZStream × σ
  deflateEnd : ZStream → σ → Rc × Bool

/-
  What is set when the library is loaded:
  `zlib_deflate_impl`, and what decides about the hardware
  streams.
-/
structure DeflateLib where
  deflateImpl : Impl
  config : DeflateHwConfig

/-
  What a call meets: the software, the reason for which
  `h_deflateInit2_` cannot open the card or get its memory,
  if there is one, and the card.
-/
structure DeflateWorld (σ : Type) where
  soft : DeflSoftware σ
  hwInit : Option { rc : Rc // rc ≠ .ok }
  card : Nat → DeflateEnv

/- A compression stream of an application. -/
abbrev DeflateWrap (σ : Type) := Wrap DeflateMore DeflateHw σ

section Calls

variable {σ : Type}

/- A hardware function on the stream that it is passed. -/
def onDeflateHw
    (f : HDeflate → Option (Rc × HDeflate))
    (z : ZStream) (s : DeflateHw) :
    Option (Rc × ZStream × DeflateHw) :=
  (f ⟨z, s, []⟩).map fun (rc, st) => (rc, st.strm, st.s)

------------------------------------------------------------
-- Set-Up and End
------------------------------------------------------------

/- `h_deflateInit2_` -/
def hDeflateInit2_
    (lib : DeflateLib)
    (world : DeflateWorld σ)
    (more : DeflateMore)
    (z : ZStream) : Rc × ZStream × Option DeflateHw :=
  let z := { z with totalIn := 0, totalOut := 0 }
  match world.hwInit with
  | some rc => (rc.val, z, none)
  | none =>
    match
      hDeflateInit2 lib.config more.windowBits more.strategy
        z with
    | none =>
        (.dataError,
          fixupCrcOrAdler z
            (deflateInitState
              (DeflStream.zeroed .defl
                lib.config.dynHuffmanSupported)),
          none)
    | some st => (.ok, st.strm, some st.s)

/- One try of `__deflateInit2_` -/
def deflateInitTry
    (lib : DeflateLib)
    (world : DeflateWorld σ)
    (x : DeflateWrap σ) : Rc × DeflateWrap σ :=
  match x.w.impl with
  | .hw =>
    match hDeflateInit2_ lib world x.w.more x.strm with
    | (rc, strm, some s) => (rc, x.below strm (.hw s))
    | (rc, strm, none) => (rc, { x with strm := strm })
  | .sw =>
    let (rc, strm, s) :=
      world.soft.deflateInit2 x.w.more x.strm
    if rc = .ok then (rc, x.below strm (.sw s))
    else (rc, { x with strm := strm })

/- The software is to be used. -/
def toSoftware (x : DeflateWrap σ) : DeflateWrap σ :=
  { x with w := { x.w with impl := .sw } }

/-
  `__deflateInit2_` on a stream whose sub-level state its
  caller then takes over: two tries, the second one with the
  software, and both with it for `Z_NO_COMPRESSION`.
-/
def deflateInitSub
    (lib : DeflateLib)
    (world : DeflateWorld σ)
    (x : DeflateWrap σ) : Rc × DeflateWrap σ :=
  let x := if x.w.more.level = 0 then toSoftware x else x
  let (rc, x) := deflateInitTry lib world x
  if rc = .ok then (rc, x)
  else
    let (rc, x) := deflateInitTry lib world (toSoftware x)
    if rc = .ok then (rc, x) else (rc, toSoftware x)

/-
  `deflateInit2_` of the wrapper. On failure the state is freed
  again and the caller has no stream.
-/
def deflateInit2
    (lib : DeflateLib)
    (world : DeflateWorld σ)
    (more : DeflateMore)
    (z : ZStream) : Rc × Option (DeflateWrap σ) :=
  let x : DeflateWrap σ :=
    { strm := z
      state := .null
      w :=
        { impl := lib.deflateImpl
          privData := .null
          more := more }
      freed := false }
  let (rc, x) := deflateInitSub lib world x
  if rc = .ok then (rc, some { x with state := .internal })
  else (rc, none)

/- `__deflateEnd` -/
def deflateEndSub
    (world : DeflateWorld σ) (x : DeflateWrap σ) :
    Option (Rc × DeflateWrap σ) :=
  endSub world.soft.deflateEnd x

/- `deflateEnd` -/
def deflateEnd
    (world : DeflateWorld σ) (x : DeflateWrap σ) :
    Option (Rc × DeflateWrap σ) :=
  endWrap world.soft.deflateEnd x

------------------------------------------------------------
-- The Other Calls
------------------------------------------------------------

/- `deflateReset` -/
def deflateReset
    (world : DeflateWorld σ) :
    DeflateWrap σ → Option (Rc × DeflateWrap σ) :=
  guarded
    (callSub (onDeflateHw fun st => some (hDeflateReset st))
      world.soft.deflateReset)

/- `deflateSetDictionary` -/
def deflateSetDictionary
    (world : DeflateWorld σ)
    (dictionary : List UInt8) :
    DeflateWrap σ → Option (Rc × DeflateWrap σ) :=
  guarded
    (callSub
      (onDeflateHw fun st =>
        some (hDeflateSetDictionary dictionary st))
      (world.soft.deflateSetDictionary dictionary))

/- `deflateSetHeader` -/
def deflateSetHeader
    (world : DeflateWorld σ)
    (head : Option GzipHead) :
    DeflateWrap σ → Option (Rc × DeflateWrap σ) :=
  guarded
    (callSub
      (onDeflateHw fun st => some (hDeflateSetHeader head st))
      (world.soft.deflateSetHeader head))

/- `deflate` -/
def deflateCall
    (world : DeflateWorld σ)
    (flush : Flush) :
    DeflateWrap σ → Option (Rc × DeflateWrap σ) :=
  guarded
    (callSub (onDeflateHw (hDeflate flush world.card))
      (world.soft.deflate flush))

------------------------------------------------------------
-- Parameters
------------------------------------------------------------

/-
  The branch of `deflateParams` that gives up the hardware
  stream. `strm->state` is the wrapper's in the end, whatever
  has failed before.
-/
def deflateFallback
    (lib : DeflateLib)
    (world : DeflateWorld σ)
    (x : DeflateWrap σ) : Option (Rc × DeflateWrap σ) :=
  (deflateEndSub world x).map fun (rc, x) =>
    let (rc, x) :=
      if rc ≠ .ok then (rc, x)
      else deflateInitSub lib world x.zeroTotals
    (rc, { x with state := .internal })

/- `deflateParams` -/
def deflateParams
    (lib : DeflateLib)
    (world : DeflateWorld σ)
    (level strategy : Int) :
    DeflateWrap σ → Option (Rc × DeflateWrap σ) :=
  guarded fun x =>
    let x :=
      x.keep
        { x.w.more with level := level, strategy := strategy }
    match x.w.impl with
    | .hw =>
      if x.strm.totalIn ≠ 0 ∨ level ≠ 0 then some (.ok, x)
      else deflateFallback lib world x
    | .sw =>
      callSub (fun _ _ => none)
        (world.soft.deflateParams level strategy) x

------------------------------------------------------------
-- Runs
------------------------------------------------------------

/- The arguments of a call of `deflate`. -/
structure WrapDeflate where
  nextIn : List UInt8
  availOut : Nat
  flush : Flush

/- A call on the stream. -/
inductive DeflWrapOp where
  | deflate (args : WrapDeflate)
  | reset
  | setDictionary (dictionary : List UInt8)
  | setHeader (head : Option GzipHead)
  | params (level strategy : Int)

/- The caller's buffers are offered. -/
def WrapDeflate.offer
    (args : WrapDeflate) (x : DeflateWrap σ) :
    DeflateWrap σ :=
  { x with strm := x.strm.offer args.nextIn args.availOut }

/- A call, what it returns, and the stream it leaves. -/
def DeflWrapOp.run
    (lib : DeflateLib)
    (world : DeflateWorld σ)
    (x : DeflateWrap σ) :
    DeflWrapOp → Option (Rc × DeflateWrap σ)
  | .deflate args =>
      deflateCall world args.flush (args.offer x)
  | .reset => deflateReset world x
  | .setDictionary dictionary =>
      deflateSetDictionary world dictionary x
  | .setHeader head => deflateSetHeader world head x
  | .params level strategy =>
      deflateParams lib world level strategy x

/- A call, what it met, on which stream, and its result. -/
structure DeflWrapLabel (σ : Type) where
  before : DeflateWrap σ
  world : DeflateWorld σ
  op : DeflWrapOp
  rc : Rc

/- One call on the stream. -/
def deflWrapStep
    (lib : DeflateLib)
    (x : DeflateWrap σ)
    (l : DeflWrapLabel σ)
    (x' : DeflateWrap σ) : Prop :=
  l.before = x ∧ l.op.run lib l.world x = some (l.rc, x')

/- A run of calls on a stream that was set up. -/
def DeflWrapRun
    (lib : DeflateLib)
    (more : DeflateMore)
    (trace : List (DeflWrapLabel σ))
    (x : DeflateWrap σ) : Prop :=
  ∃ world z x₀,
    deflateInit2 lib world more z = (.ok, some x₀) ∧
      Run (deflWrapStep lib) x₀ trace x

end Calls

end Wrapper
