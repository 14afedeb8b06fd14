import GenWqe.Session.Inflate
import GenWqe.Wrapper.Dispatch

/-
  The decompression side of the wrapper, where `inflate` may
  exchange the hardware implementation for the software one
  and the other way round.

  Key definitions include:
    * `Software`, `InflateLib`, `InflateWorld`
    * `InflateMore`, `InflateWrap`
    * `switchTo`, `inflateEntered`, `inflateCall`
    * `WrapOp`, `WrapRun`
-/

------------------------------------------------------------
-- What Lies Below
------------------------------------------------------------

namespace Wrapper

open Zedc Hardware

/- `ZLIB_MAXDICTLEN` -/
def zlibMaxDictLen : Nat := 32 * 1024

/-
  The software zlib, as far as it is called: the functions
  `z_inflateInit2_`, `z_inflateReset` and so on, with the type
  of its state.
-/
structure Software (σ : Type) where
  inflateInit2 : Int → ZStream → Rc × ZStream × σ
  inflateReset : ZStream → σ → Rc × ZStream × σ
  inflateReset2 : Int → ZStream → σ → Rc × ZStream × σ
  inflateSetDictionary :
    List UInt8 → ZStream → σ → Rc × ZStream × σ
  inflateGetDictionary : ZStream → σ → Rc × List UInt8
  inflateGetHeader :
    GzedcHeader → ZStream → σ → Rc × ZStream × σ
  inflate : Flush → ZStream → σ → Rc × ZStream × σ
  inflateEnd : ZStream → σ → Rc

/-
  What is set when the library is loaded:
  `zlib_inflate_impl`, `zlib_inflate_threshold`, whether the
  software has `inflateGetDictionary`, and what decides about
  the hardware streams.
-/
structure InflateLib where
  inflateImpl : Impl
  inflateThreshold : Nat
  hasGetDictionary : Bool
  config : InflateConfig
  checkDisabled : Bool

/-
  What a call meets: the software, the reason for which
  `h_inflateInit2_` cannot open the card or get its memory,
  if there is one, and the card.
-/
structure InflateWorld (σ : Type) where
  soft : Software σ
  hwInit : Option { rc : Rc // rc ≠ .ok }
  card : Nat → InflateEnv

------------------------------------------------------------
-- The Wrapper's State
------------------------------------------------------------

/-
  What the wrapper keeps for decompression. Its `dictionary`
  is there where the software has no `inflateGetDictionary`.
-/
structure InflateMore where
  allowSwitching : Bool
  windowBits : Int
  gzhead : Option GzedcHeader
  dictionary : ByteMem
  dictLength : Nat

/- A decompression stream of an application. -/
abbrev InflateWrap (σ : Type) := Wrap InflateMore InflateHw σ

section Calls

variable {σ : Type}

/- A hardware function on the stream that it is passed. -/
def onHardware
    (f : HInflate → Option (Rc × HInflate))
    (z : ZStream) (s : InflateHw) :
    Option (Rc × ZStream × InflateHw) :=
  (f ⟨z, s, []⟩).map fun (rc, st) => (rc, st.strm, st.s)

------------------------------------------------------------
-- Set-Up and End
------------------------------------------------------------

/- `h_inflateInit2_` -/
def hInflateInit2_
    (lib : InflateLib)
    (world : InflateWorld σ)
    (windowBits : Int)
    (z : ZStream) : Rc × ZStream × Option InflateHw :=
  let z := { z with totalIn := 0, totalOut := 0 }
  match world.hwInit with
  | some rc => (rc.val, z, none)
  | none =>
    match hInflateInit2 lib.config windowBits z with
    | none =>
        (.dataError,
          fixupInflate z
            (inflateInitState (InflStream.zeroed .defl)),
          none)
    | some st => (.ok, st.strm, some st.s)

/- One try of `__inflateInit2_` -/
def inflateInitTry
    (lib : InflateLib)
    (world : InflateWorld σ)
    (x : InflateWrap σ) : Rc × InflateWrap σ :=
  match x.w.impl with
  | .hw =>
    match
      hInflateInit2_ lib world x.w.more.windowBits x.strm with
    | (rc, strm, some s) =>
        (rc, x.below strm (.hw s))
    | (rc, strm, none) => (rc, { x with strm := strm })
  | .sw =>
    let (rc, strm, s) :=
      world.soft.inflateInit2 x.w.more.windowBits x.strm
    if rc = .ok then (rc, x.below strm (.sw s))
    else (rc, { x with strm := strm })

/-
  `__inflateInit2_`: two tries, the second one with the
  software.
-/
def inflateInitSub
    (lib : InflateLib)
    (world : InflateWorld σ)
    (x : InflateWrap σ) : Rc × InflateWrap σ :=
  let toSoftware (x : InflateWrap σ) : InflateWrap σ :=
    { x with
      w :=
        { x.w with
          impl := .sw
          more := { x.w.more with allowSwitching := false } } }
  let (rc, x) := inflateInitTry lib world x
  if rc = .ok then (rc, x)
  else
    let (rc, x) := inflateInitTry lib world (toSoftware x)
    if rc = .ok then (rc, x) else (rc, toSoftware x)

/-
  `inflateInit2_` of the wrapper. On failure the state is freed
  again and the caller has no stream.
-/
def inflateInit2
    (lib : InflateLib)
    (world : InflateWorld σ)
    (windowBits : Int)
    (z : ZStream) : Rc × Option (InflateWrap σ) :=
  let x : InflateWrap σ :=
    { strm := { z with totalIn := 0, totalOut := 0 }
      state := .null
      w :=
        { impl := lib.inflateImpl
          privData := .null
          more :=
            { allowSwitching := true
              windowBits := windowBits
              gzhead := none
              dictionary := fun _ => 0
              dictLength := 0 } }
      freed := false }
  let (rc, x) := inflateInitSub lib world x
  if rc = .ok then (rc, some { x with state := .internal })
  else (rc, none)

/- `z_inflateEnd` frees where it returns `Z_OK`. -/
def softInflateEnd
    (world : InflateWorld σ) (z : ZStream) (s : σ) :
    Rc × Bool :=
  let rc := world.soft.inflateEnd z s
  (rc, rc = .ok)

/- `__inflateEnd` -/
def inflateEndSub
    (world : InflateWorld σ) (x : InflateWrap σ) :
    Option (Rc × InflateWrap σ) :=
  endSub (softInflateEnd world) x

/- `inflateEnd` -/
def inflateEnd
    (world : InflateWorld σ) (x : InflateWrap σ) :
    Option (Rc × InflateWrap σ) :=
  endWrap (softInflateEnd world) x

------------------------------------------------------------
-- Reset, Dictionary and Header
------------------------------------------------------------

/- `inflateReset` -/
def inflateReset
    (world : InflateWorld σ) :
    InflateWrap σ → Option (Rc × InflateWrap σ) :=
  guarded fun x =>
    (callSub (onHardware fun st => some (hInflateReset st))
      world.soft.inflateReset
      (x.keep
        { x.w.more with
          allowSwitching := true
          gzhead := none
          dictLength := 0 })).map fun (rc, x) =>
      (rc, x.zeroTotals)

/- `inflateReset2` -/
def inflateReset2
    (world : InflateWorld σ) (windowBits : Int) :
    InflateWrap σ → Option (Rc × InflateWrap σ) :=
  guarded fun x =>
    (callSub
      (onHardware fun st =>
        some (hInflateReset2 windowBits st))
      (world.soft.inflateReset2 windowBits)
      (x.keep
        { x.w.more with
          allowSwitching := true
          dictLength := 0 })).map fun (rc, x) =>
      (rc, x.zeroTotals)

/-
  The wrapper's own copy of a dictionary: its first 32 KiB, and
  its length.
-/
def cacheDictionary
    (lib : InflateLib)
    (dictionary : List UInt8)
    (x : InflateWrap σ) : InflateWrap σ :=
  match x.w.impl with
  | .hw => x
  | .sw =>
    if lib.hasGetDictionary then x
    else
      x.keep
        { x.w.more with
          dictionary :=
            x.w.more.dictionary.store 0
              (dictionary.take zlibMaxDictLen)
          dictLength := dictionary.length }

/- `inflateSetDictionary` -/
def inflateSetDictionary
    (lib : InflateLib)
    (world : InflateWorld σ)
    (dictionary : List UInt8) :
    InflateWrap σ → Option (Rc × InflateWrap σ) :=
  guarded fun x =>
    (callSub
      (onHardware fun st =>
        some (hInflateSetDictionary dictionary st))
      (world.soft.inflateSetDictionary dictionary) x).map
        fun (rc, x) =>
      (rc, cacheDictionary lib dictionary x)

/-
  `inflateGetDictionary`: what is copied to the caller's
  buffer.
-/
def inflateGetDictionary
    (lib : InflateLib)
    (world : InflateWorld σ)
    (x : InflateWrap σ) : Option (Rc × List UInt8) :=
  match x.w.impl, x.w.privData with
  | .hw, .live (.hw s) =>
      some (.ok, (Session.zedcInflateGetDictionary s.h).1)
  | .sw, .live (.sw s) =>
      if lib.hasGetDictionary then
        some (world.soft.inflateGetDictionary x.strm s)
      else
        some
          (.ok,
            x.w.more.dictionary.window 0
              x.w.more.dictLength)
  | _, .null => some (.streamError, [])
  | _, _ => none

/- `inflateGetHeader` -/
def inflateGetHeader
    (world : InflateWorld σ) (head : GzedcHeader) :
    InflateWrap σ → Option (Rc × InflateWrap σ) :=
  guarded fun x =>
    callSub
      (onHardware fun st => some (hInflateGetHeader head st))
      (world.soft.inflateGetHeader head)
      (x.keep { x.w.more with gzhead := some head })

------------------------------------------------------------
-- Switching
------------------------------------------------------------

/-
  The exits of the switch: the call goes on with the new
  implementation, or it returns.
-/
inductive Entered (σ : Type) where
  | go (x : InflateWrap σ)
  | exit (rc : Rc) (x : InflateWrap σ)

/- The header is registered anew; nobody looks at the result. -/
def switchHeader
    (world : InflateWorld σ) (x : InflateWrap σ) :
    Option (InflateWrap σ) :=
  match x.w.more.gzhead with
  | none => some x
  | some head =>
      (inflateGetHeader world head x).map Prod.snd

/-
  The dictionary is set again, which ends the stream where it
  fails.
-/
def switchDictionary
    (lib : InflateLib)
    (world : InflateWorld σ)
    (dictionary : List UInt8)
    (x : InflateWrap σ) : Option (Entered σ) :=
  if dictionary.length = 0 then some (.go x)
  else
    (inflateSetDictionary lib world dictionary x).bind
      fun (rc, x) =>
        if rc = .ok then some (.go x)
        else
          (inflateEnd world x).map fun (_, x) => .exit rc x

/- Behind the new initialisation. -/
def switchRestore
    (lib : InflateLib)
    (world : InflateWorld σ)
    (dictionary : List UInt8)
    (x : InflateWrap σ) : Option (Entered σ) :=
  (switchHeader world { x with state := .internal }).bind
    (switchDictionary lib world dictionary)

/-
  The body of both branches of `inflate` that exchange the
  implementation. None stands for a dictionary that does not
  fit into the 32 KiB on the stack, too.
-/
def switchTo
    (lib : InflateLib)
    (world : InflateWorld σ)
    (impl : Impl)
    (x : InflateWrap σ) : Option (Entered σ) :=
  (inflateGetDictionary lib world x).bind
    fun (rc, dictionary) =>
      if rc ≠ .ok then some (.exit rc x)
      else if dictionary.length > zlibMaxDictLen then none
      else
        (inflateEndSub world x).bind fun (rc, x) =>
          if rc ≠ .ok then some (.exit rc x)
          else
            let (rc, x) :=
              inflateInitSub lib world
                { x with w := { x.w with impl := impl } }
            if rc ≠ .ok then some (.exit rc x)
            else switchRestore lib world dictionary x

/- The implementation that `inflate` changes to, if any. -/
def switchTarget
    (lib : InflateLib) (x : InflateWrap σ) : Option Impl :=
  if x.strm.nextIn.length < lib.inflateThreshold ∧
      x.w.impl = .hw then
    some .sw
  else if x.strm.nextIn.length ≥ lib.inflateThreshold ∧
      x.w.impl = .sw ∧ lib.inflateImpl = .hw then
    some .hw
  else none

/- `inflate` in front of the call of the implementation. -/
def inflateEntered
    (lib : InflateLib)
    (world : InflateWorld σ)
    (x : InflateWrap σ) : Option (Entered σ) :=
  if x.strm.totalIn = 0 ∧ x.w.more.allowSwitching then
    if x.strm.nextIn = [] then some (.exit .bufError x)
    else
      match switchTarget lib x with
      | none => some (.go x)
      | some impl => switchTo lib world impl x
  else some (.go x)

/- `inflate`, if `h_inflate` returns within `fuel` rounds. -/
def inflateCall
    (lib : InflateLib)
    (world : InflateWorld σ)
    (fuel : Nat)
    (flush : Flush) :
    InflateWrap σ → Option (Rc × InflateWrap σ) :=
  guarded fun x =>
    (inflateEntered lib world x).bind fun entered =>
      match entered with
      | .exit rc x => some (rc, x)
      | .go x =>
          (callSub
            (onHardware
              (hInflate lib.checkDisabled fuel flush
                world.card))
            (world.soft.inflate flush) x).map fun (rc, x) =>
            (rc,
              x.keep
                { x.w.more with allowSwitching := false })

------------------------------------------------------------
-- Runs
------------------------------------------------------------

/- The arguments of a call of `inflate`. -/
structure WrapInflate where
  nextIn : List UInt8
  availOut : Nat
  flush : Flush

/- A call on the stream. -/
inductive WrapOp where
  | inflate (args : WrapInflate)
  | reset
  | reset2 (windowBits : Int)
  | setDictionary (dictionary : List UInt8)
  | getHeader (head : GzedcHeader)

/- The caller's buffers are offered. -/
def WrapInflate.offer
    (args : WrapInflate) (x : InflateWrap σ) :
    InflateWrap σ :=
  { x with strm := x.strm.offer args.nextIn args.availOut }

/- A call, what it returns, and the stream it leaves. -/
def WrapOp.run
    (lib : InflateLib)
    (world : InflateWorld σ)
    (fuel : Nat)
    (x : InflateWrap σ) :
    WrapOp → Option (Rc × InflateWrap σ)
  | .inflate args =>
      inflateCall lib world fuel args.flush (args.offer x)
  | .reset => inflateReset world x
  | .reset2 windowBits => inflateReset2 world windowBits x
  | .setDictionary dictionary =>
      inflateSetDictionary lib world dictionary x
  | .getHeader head => inflateGetHeader world head x

/- A call, what it met, on which stream, and its result. -/
structure WrapLabel (σ : Type) where
  before : InflateWrap σ
  world : InflateWorld σ
  op : WrapOp
  rc : Rc

/- One call on the stream, which returns. -/
def wrapStep
    (lib : InflateLib)
    (x : InflateWrap σ)
    (l : WrapLabel σ)
    (x' : InflateWrap σ) : Prop :=
  l.before = x ∧
    ∃ fuel, l.op.run lib l.world fuel x = some (l.rc, x')

/- A run of calls on a stream that was set up. -/
def WrapRun
    (lib : InflateLib)
    (windowBits : Int)
    (trace : List (WrapLabel σ))
    (x : InflateWrap σ) : Prop :=
  ∃ world z x₀,
    inflateInit2 lib world windowBits z = (.ok, some x₀) ∧
      Run (wrapStep lib) x₀ trace x

end Calls

end Wrapper
