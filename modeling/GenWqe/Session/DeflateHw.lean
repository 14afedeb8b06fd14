import GenWqe.Hardware.Bookkeeping
import GenWqe.Hardware.Buffering
import GenWqe.Session.Deflate

/-
  The calls made on a deflate stream of the hardware
  implementation, with the states that any sequence of them
  reaches.

  Key definitions include:
    * `DeflateHwConfig`
    * `hDeflateInit2`, `hDeflateReset`
    * `hDeflateSetDictionary`, `hDeflateSetHeader`
    * `HDeflateOp`, `HDeflateRun`
-/

------------------------------------------------------------
-- Set-Up and Reset
------------------------------------------------------------

namespace Session

open Zedc Hardware

/-
  What flags and environment variables decide: the size of the
  input buffer and of a page, the kind of card, and options of
  the stream.
-/
structure DeflateHwConfig where
  ibufTotal : Nat
  pageSize : Nat
  dynHuffmanSupported : Bool
  flgCrossCheck : Bool
  flgSkipLastDict : Bool

/- `Z_FIXED` -/
def zFixed : Int := 4

/-
  The stream options of a configuration, with what the
  `strategy` argument adds.
-/
def DeflateHwConfig.stream
    (cfg : DeflateHwConfig) (strategy : Int) :
    DeflateConfig where
  dynHuffmanSupported := cfg.dynHuffmanSupported
  strategyFixed := strategy = zFixed
  flgCrossCheck := cfg.flgCrossCheck
  flgSkipLastDict := cfg.flgSkipLastDict

/- The size of `obuf` for an input buffer. -/
def DeflateHwConfig.obufTotal (cfg : DeflateHwConfig) : Nat :=
  if cfg.ibufTotal = 0 then 0
  else hDeflateBound cfg.pageSize cfg.ibufTotal

/-
  `h_deflateInit2_` on the caller's stream; none stands for a
  stream that is not set up. Level, method and memory level
  are not looked at.
-/
def hDeflateInit2
    (cfg : DeflateHwConfig)
    (windowBits strategy : Int)
    (z : ZStream) : Option HDeflate :=
  match formatInit windowBits with
  | none => none
  | some format =>
    let h := zedcDeflateInit2 (cfg.stream strategy) format
    some
      { hDeflateInit h cfg.ibufTotal cfg.obufTotal with
        strm :=
          fixupCrcOrAdler
            { z with totalIn := 0, totalOut := 0 } h }

/- `h_deflateReset` -/
def hDeflateReset (st : HDeflate) : Rc × HDeflate :=
  let h := deflateInitState st.s.h
  (.ok,
    { st with
      strm :=
        fixupCrcOrAdler
          { st.strm with totalIn := 0, totalOut := 0 } h
      s :=
        { st.s with
          h := h
          rc := .ok
          ibuf := []
          ibufAvail := st.s.ibufTotal
          obuf := Obuf.initial st.s.obuf.total } })

/- `h_deflateSetDictionary` -/
def hDeflateSetDictionary
    (dictionary : List UInt8) (st : HDeflate) :
    Rc × HDeflate :=
  let (rc, h) := deflateSetDictionary dictionary st.s.h
  (rc,
    { st with
      strm := { st.strm with adler := h.dictAdler32 }
      s := { st.s with h := h } })

/- `h_deflateSetHeader` -/
def hDeflateSetHeader
    (head : Option GzipHead) (st : HDeflate) :
    Rc × HDeflate :=
  (.ok,
    { st with
      s :=
        { st.s with h := zedcDeflateSetHeader head st.s.h } })

------------------------------------------------------------
-- Runs
------------------------------------------------------------

/- A call on a deflate stream of the hardware. -/
inductive HDeflateOp where
  | deflate (call : HDeflateCall)
  | setDictionary (dictionary : List UInt8)
  | setHeader (head : Option GzipHead)
  | reset

/- A call, what it returns, and the state it leaves. -/
def HDeflateOp.run
    (st : HDeflate) : HDeflateOp → Option (Rc × HDeflate)
  | .deflate call =>
      hDeflate call.flush call.env (call.offer st)
  | .setDictionary dictionary =>
      some (hDeflateSetDictionary dictionary st)
  | .setHeader head => some (hDeflateSetHeader head st)
  | .reset => some (hDeflateReset st)

/- One call on the stream, with what it returned. -/
def hDeflateOpStep
    (st : HDeflate)
    (l : HDeflateOp × Rc)
    (st' : HDeflate) : Prop :=
  l.1.run st = some (l.2, st')

/- A run of calls on a stream that was set up. -/
def HDeflateRun
    (cfg : DeflateHwConfig)
    (windowBits strategy : Int)
    (trace : List (HDeflateOp × Rc))
    (st : HDeflate) : Prop :=
  ∃ z st₀,
    hDeflateInit2 cfg windowBits strategy z = some st₀ ∧
      Run hDeflateOpStep st₀ trace st

end Session
