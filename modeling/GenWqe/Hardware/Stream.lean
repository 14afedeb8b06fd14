import GenWqe.Zedc.Codes
import GenWqe.Lib.ByteMem

/-
  The caller's `z_stream` and the internal output buffer of
  `struct hw_state`, which h_deflate and h_inflate share, with
  the function that gives buffered output out.

  Key definitions include:
    * `ZStream` and `ZStream.offer`
    * `Obuf`, `hFlushObuf`

  Main results:
    * `hFlushObuf_spec`
-/

------------------------------------------------------------
-- The Caller's Stream
------------------------------------------------------------

namespace Hardware

open Zedc

/- Overwrite a byte string from an offset on. -/
def storeAt (out : List UInt8) (off : Nat)
    (bs : List UInt8) : List UInt8 :=
  out.take off ++ bs ++ out.drop (off + bs.length)

@[simp] theorem storeAt_length (out bs : List UInt8) :
    storeAt out out.length bs = out ++ bs := by
  simp [storeAt]

/-
  `z_stream`. The buffers a caller offers one after the other
  are one output space: `out` are the bytes stored in it, and
  `nextOut` is where `next_out` points to in it. Of
  `data_type` only the bit 0x80 is kept.
-/
structure ZStream where
  nextIn : List UInt8
  totalIn : Nat
  out : List UInt8
  nextOut : Nat
  availOut : Nat
  totalOut : Nat
  dataType80 : Bool
  adler : UInt32

/-
  The caller sets `next_in`, `avail_in`, `next_out` and
  `avail_out` for a call: new output space begins where the
  stored output ends.
-/
def ZStream.offer
    (z : ZStream)
    (nextIn : List UInt8)
    (availOut : Nat) : ZStream :=
  { z with
    nextIn := nextIn
    nextOut := z.out.length
    availOut := availOut }

/- A stream before its first call. -/
def ZStream.initial : ZStream where
  nextIn := []
  totalIn := 0
  out := []
  nextOut := 0
  availOut := 0
  totalOut := 0
  dataType80 := false
  adler := 0

------------------------------------------------------------
-- The Internal Output Buffer
------------------------------------------------------------

/-
  `obuf_total`, `obuf_avail`, the bytes between `obuf_base`
  and `obuf`, and the offset of `obuf_next`.
-/
structure Obuf where
  total : Nat
  avail : Nat
  buf : List UInt8
  next : Nat

/- An empty buffer of a size. -/
def Obuf.initial (total : Nat) : Obuf where
  total := total
  avail := total
  buf := []
  next := 0

/- `output_buffer_empty` -/
def Obuf.isEmpty (o : Obuf) : Bool :=
  o.avail == o.total

/- `output_buffer_bytes` -/
def Obuf.bytes (o : Obuf) : Nat :=
  o.buf.length - o.next

/- The bytes that are still to be given out. -/
def Obuf.waiting (o : Obuf) : List UInt8 :=
  o.buf.drop o.next

theorem Obuf.length_waiting (o : Obuf) :
    o.waiting.length = o.bytes := by
  simp [Obuf.waiting, Obuf.bytes]

/-
  `h_flush_obuf`. Its return value, the bytes that remain, is
  `Obuf.bytes` of the buffer it leaves.
-/
def hFlushObuf (o : Obuf) (z : ZStream) : Obuf × ZStream :=
  if z.availOut = 0 then (o, z)
  else if o.bytes = 0 then (o, z)
  else
    let tocopy := min z.availOut o.bytes
    ({ o with
        next := o.next + tocopy
        avail := o.avail + tocopy },
      { z with
        out := storeAt z.out z.nextOut (o.waiting.take tocopy)
        nextOut := z.nextOut + tocopy
        availOut := z.availOut - tocopy
        totalOut := z.totalOut + tocopy })

/- What giving out `k` waiting bytes leaves. -/
def Obuf.giveOut (o : Obuf) (k : Nat) : Obuf :=
  { o with next := o.next + k, avail := o.avail + k }

def ZStream.take
    (z : ZStream) (bs : List UInt8) : ZStream :=
  { z with
    out := z.out ++ bs
    nextOut := z.nextOut + bs.length
    availOut := z.availOut - bs.length
    totalOut := z.totalOut + bs.length }

theorem Obuf.waiting_giveOut (o : Obuf) (k : Nat) :
    (o.giveOut k).waiting = o.waiting.drop k := by
  simp [Obuf.giveOut, Obuf.waiting, List.drop_drop]

/-
  Waiting bytes are given out in order, until none is left or
  there is no space for more.
-/
theorem hFlushObuf_spec
    (o : Obuf)
    (z : ZStream)
    (hNext : z.nextOut = z.out.length) :
    ∃ k,
      hFlushObuf o z =
        (o.giveOut k, z.take (o.waiting.take k)) ∧
      k ≤ o.waiting.length ∧
      k ≤ z.availOut ∧
      (z.availOut = k ∨ o.waiting.length = k) := by
  unfold hFlushObuf
  rw [Obuf.length_waiting]
  by_cases hFull : z.availOut = 0
  · rw [if_pos hFull]
    exact ⟨0, by simp [Obuf.giveOut, ZStream.take],
      Nat.zero_le _, Nat.zero_le _, Or.inl hFull⟩
  · rw [if_neg hFull]
    by_cases hNone : o.bytes = 0
    · rw [if_pos hNone]
      exact ⟨0, by simp [Obuf.giveOut, ZStream.take],
        Nat.zero_le _, Nat.zero_le _, Or.inr hNone⟩
    · rw [if_neg hNone]
      refine ⟨min z.availOut o.bytes, ?_, by omega, by omega,
        by omega⟩
      have hLen :
          (o.waiting.take
            (min z.availOut o.bytes)).length =
              min z.availOut o.bytes := by
        rw [List.length_take, Obuf.length_waiting]
        omega
      simp only [Obuf.giveOut, ZStream.take, hLen, hNext,
        storeAt_length]

end Hardware
