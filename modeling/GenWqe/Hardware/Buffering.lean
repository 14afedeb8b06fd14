import GenWqe.Deflate.Accounts
import GenWqe.Hardware.Deflate

/-
  The buffers of `h_deflate` are transparent: nothing is lost,
  doubled or reordered between the caller and `zedc_deflate`.

  Key definitions include:
    * `takenInput`, `passedInput`, `givenOutput`
    * `Transparent`
    * `callMoments`, `callSends`

  Main results:
    * `hDeflateLoop_buffered`
    * `buffering_transparent`
-/

------------------------------------------------------------
-- What the Calls Took and Gave
------------------------------------------------------------

namespace Hardware

open Zedc

/- The input that a call of `zedc_deflate` takes. -/
def takenBy
    (c : DeflateCall) (h : DeflStream) : List UInt8 :=
  c.nextIn.take
    (c.nextIn.length - (c.ret h).strm.nextIn.length)

/- The stream after calls, from the stream before them. -/
def replay :
    DeflStream → List DeflateLabel → DeflStream
  | h, [] => h
  | h, l :: calls => replay (l.call.ret h).strm calls

/- The input that calls take, in order. -/
def takenInput :
    DeflStream → List DeflateLabel → List UInt8
  | _, [] => []
  | h, l :: calls =>
      takenBy l.call h ++
        takenInput (l.call.ret h).strm calls

/- The output that calls give, in order. -/
def givenOutput :
    DeflStream → List DeflateLabel → List UInt8
  | _, [] => []
  | h, l :: calls =>
      newOutput h (l.call.ret h).strm ++
        givenOutput (l.call.ret h).strm calls

/- All the input that is passed to calls, in order. -/
def passedInput (calls : List DeflateLabel) : List UInt8 :=
  calls.flatMap fun l => l.call.nextIn

/- Every call absorbs its input. -/
def AllAbsorbed :
    DeflStream → List DeflateLabel → Prop
  | _, [] => True
  | h, l :: calls =>
      (l.call.ret h).strm.nextIn = [] ∧
        AllAbsorbed (l.call.ret h).strm calls

section Replay

variable (h : DeflStream) (calls : List DeflateLabel)
variable (l : DeflateLabel)

theorem replay_concat :
    replay h (calls ++ [l]) =
      (l.call.ret (replay h calls)).strm := by
  induction calls generalizing h with
  | nil => rfl
  | cons l' calls ih => exact ih (l'.call.ret h).strm

theorem takenInput_concat :
    takenInput h (calls ++ [l]) =
      takenInput h calls ++
        takenBy l.call (replay h calls) := by
  induction calls generalizing h with
  | nil => simp [takenInput, replay]
  | cons l' calls ih =>
      simp only [List.cons_append, takenInput, replay, ih,
        List.append_assoc]

theorem givenOutput_concat :
    givenOutput h (calls ++ [l]) =
      givenOutput h calls ++
        newOutput (replay h calls)
          (l.call.ret (replay h calls)).strm := by
  induction calls generalizing h with
  | nil => simp [givenOutput, replay]
  | cons l' calls ih =>
      simp only [List.cons_append, givenOutput, replay, ih,
        List.append_assoc]

/- Calls that absorb their input take what is passed. -/
theorem takenInput_of_absorbed
    (hAll : AllAbsorbed h calls) :
    takenInput h calls = passedInput calls := by
  induction calls generalizing h with
  | nil => rfl
  | cons l calls ih =>
      rcases hAll with ⟨hNone, hRest⟩
      have hTaken : takenBy l.call h = l.call.nextIn := by
        unfold takenBy
        rw [hNone]
        exact List.take_length
      unfold takenInput
      rw [hTaken, ih _ hRest]
      rfl

end Replay

------------------------------------------------------------
-- The Steps of a Call
------------------------------------------------------------

/- The states between the steps of a round, in order. -/
def roundMoments
    (flush : Flush)
    (env : DeflateEnv)
    (st : HDeflate) : List HDeflate :=
  let mid := hDeflateCollect st
  [hReadIbuf st, mid] ++
    if mid.strm.availOut = 0 then []
    else if flush ≠ .noFlush ∨ mid.s.ibufAvail = 0 then
      match hDeflateSend flush env mid with
      | .inl (_, sent) => [sent]
      | .inr sent => [sent, hDeflateFlushObuf sent]
    else [hDeflateFlushObuf mid]

/- The states in which a round sends its input. -/
def roundSends
    (flush : Flush) (st : HDeflate) : List HDeflate :=
  let mid := hDeflateCollect st
  if mid.strm.availOut = 0 then []
  else if flush ≠ .noFlush ∨ mid.s.ibufAvail = 0 then [mid]
  else []

/- The state in which the loop of a call starts. -/
def callStart
    (c : HDeflateCall) (st : HDeflate) : HDeflate :=
  { st with
    strm :=
      prepCrcOrAdler
        (st.strm.offer c.nextIn c.availOut) st.s.h }

/-
  Behind the bytes consumed in the `past`, and with `offered`
  in this call: what is not with the caller any more was taken
  or waits in the input buffer, and what was given is with the
  caller or waits for it.
-/
structure Buffered
    (h₀ : DeflStream)
    (inTotal outTotal : Nat)
    (past offered : List UInt8)
    (st : HDeflate) : Prop where
  ibufTotal : st.s.ibufTotal = inTotal
  obufTotal : st.s.obuf.total = outTotal
  stream : st.s.h = replay h₀ st.calls
  input :
    takenInput h₀ st.calls ++ st.s.ibuf ++ st.strm.nextIn =
      past ++ offered
  rest : st.strm.nextIn <:+ offered
  output :
    st.strm.out ++ st.s.obuf.waiting =
      givenOutput h₀ st.calls
  nextOut : st.strm.nextOut = st.strm.out.length
  ibuf :
    st.s.ibuf.length + st.s.ibufAvail = inTotal
  obuf :
    st.s.obuf.avail + st.s.obuf.waiting.length = outTotal

section Steps

variable {h₀ : DeflStream} {inTotal outTotal : Nat}
variable {past offered : List UInt8} {st : HDeflate}

theorem Buffered.read
    (hInv : Buffered h₀ inTotal outTotal past offered st) :
    Buffered h₀ inTotal outTotal past offered (hReadIbuf st) := by
  unfold hReadIbuf
  split
  · exact hInv
  · have hIbuf := hInv.ibuf
    refine ⟨hInv.ibufTotal, hInv.obufTotal, hInv.stream, ?_,
      (List.drop_suffix _ _).trans hInv.rest, hInv.output,
      hInv.nextOut, ?_, hInv.obuf⟩
    · simp only [List.append_assoc, List.take_append_drop]
      rw [← hInv.input, List.append_assoc]
    · simp only [List.length_append, List.length_take]
      omega

theorem Buffered.flush
    (hInv : Buffered h₀ inTotal outTotal past offered st) :
    Buffered h₀ inTotal outTotal past offered (hDeflateFlushObuf st) ∧
      ((hDeflateFlushObuf st).strm.availOut ≠ 0 →
        (hDeflateFlushObuf st).s.obuf.waiting = []) := by
  rcases hFlushObuf_spec st.s.obuf st.strm hInv.nextOut with
    ⟨k, hEq, hWaiting, hSpace, hEnd⟩
  have hOutput := hInv.output
  have hObuf := hInv.obuf
  unfold hDeflateFlushObuf
  rw [hEq]
  refine ⟨⟨hInv.ibufTotal, hInv.obufTotal, hInv.stream,
    hInv.input, hInv.rest, ?_, ?_, hInv.ibuf, ?_⟩, ?_⟩
  · simp only [Obuf.waiting_giveOut, ZStream.take,
      List.append_assoc, List.take_append_drop]
    exact hOutput
  · simp only [ZStream.take, List.length_append,
      hInv.nextOut]
  · simp only [Obuf.waiting_giveOut, List.length_drop]
    simp only [Obuf.giveOut]
    omega
  · intro hLeft
    simp only [ZStream.take, List.length_take] at hLeft
    simp only [Obuf.waiting_giveOut]
    exact List.drop_eq_nil_of_le (by omega)

theorem Buffered.collect
    (hInv : Buffered h₀ inTotal outTotal past offered st) :
    Buffered h₀ inTotal outTotal past offered (hDeflateCollect st) ∧
      ((hDeflateCollect st).strm.availOut ≠ 0 →
        (hDeflateCollect st).s.obuf.waiting = []) :=
  hInv.read.flush

/- The books of the call that sends the input. -/
theorem sendCall_moves
    (flush : Flush) (env : DeflateEnv) (st : HDeflate) :
    (DeflStream.account
        { st.s.h with
          nextIn := st.s.ibuf
          availOut := st.s.obuf.total }).Moves
      ((sendCall flush env st).ret st.s.h).strm.account :=
  zedcDeflate_moves _ _ _

/-
  What a call that takes all or nothing leaves, from an empty
  output buffer.
-/
theorem Buffered.send
    {flush : Flush}
    {env : DeflateEnv}
    (hInv : Buffered h₀ inTotal outTotal past offered st)
    (hEmpty : st.s.obuf.waiting = [])
    (hAll :
      ((sendCall flush env st).ret st.s.h).strm.nextIn =
          st.s.ibuf ∨
        ((sendCall flush env st).ret st.s.h).strm.nextIn =
          []) :
    Buffered h₀ inTotal outTotal past offered
      (resultState (hDeflateSend flush env st)) := by
  have hMoves := sendCall_moves flush env st
  have hStream := hInv.stream
  have hOut : st.strm.out = givenOutput h₀ st.calls := by
    have hOutput := hInv.output
    rwa [hEmpty, List.append_nil] at hOutput
  have hSent :
      (hDeflateSent flush env st).s.h =
        replay h₀ (hDeflateSent flush env st).calls := by
    change ((sendCall flush env st).ret st.s.h).strm =
      replay h₀ (st.calls ++ [sentLabel flush env st])
    rw [replay_concat, ← hStream]
    rfl
  have hGiven :
      (hDeflateSent flush env st).strm.out ++
          (hDeflateSent flush env st).s.obuf.waiting =
        givenOutput h₀
          (hDeflateSent flush env st).calls := by
    change st.strm.out ++
        newOutput st.s.h
          ((sendCall flush env st).ret st.s.h).strm =
      givenOutput h₀ (st.calls ++ [sentLabel flush env st])
    rw [givenOutput_concat, ← hStream, hOut]
    rfl
  have hRoom :
      (hDeflateSent flush env st).s.obuf.avail +
          (hDeflateSent flush env st).s.obuf.waiting.length =
        outTotal := by
    have hTotal := hInv.obufTotal
    have hNew := hMoves.output_eq
    change
      ((sendCall flush env st).ret st.s.h).strm.availOut +
          (newOutput st.s.h
            ((sendCall flush env st).ret
              st.s.h).strm).length =
        outTotal
    rcases hNew with ⟨_, hLe, hAvail, _⟩
    change (newOutput st.s.h _).length ≤ st.s.obuf.total
      at hLe
    change ((sendCall flush env st).ret
        st.s.h).strm.availOut =
      st.s.obuf.total - (newOutput st.s.h _).length at hAvail
    omega
  have hTaken :
      takenInput h₀ (hDeflateSent flush env st).calls =
        takenInput h₀ st.calls ++
          st.s.ibuf.take
            (st.s.ibuf.length -
              ((sendCall flush env st).ret
                st.s.h).strm.nextIn.length) := by
    change takenInput h₀
      (st.calls ++ [sentLabel flush env st]) = _
    rw [takenInput_concat, ← hStream]
    rfl
  unfold hDeflateSend
  simp only
  by_cases hAbsorbed :
      (hDeflateSent flush env st).s.h.nextIn = []
  · rw [if_pos hAbsorbed]
    have hNone :
        ((sendCall flush env st).ret st.s.h).strm.nextIn =
          [] := hAbsorbed
    rw [hNone, List.length_nil, Nat.sub_zero,
      List.take_length] at hTaken
    refine ⟨hInv.ibufTotal, hInv.obufTotal, hSent, ?_,
      hInv.rest, hGiven, hInv.nextOut, ?_, hRoom⟩
    · change takenInput h₀
          (hDeflateSent flush env st).calls ++ [] ++
        st.strm.nextIn = _
      rw [hTaken, List.append_nil]
      exact hInv.input
    · change 0 + st.s.ibufTotal = inTotal
      rw [Nat.zero_add, hInv.ibufTotal]
  · rw [if_neg hAbsorbed]
    -- nothing was taken, and the input stays in the buffer
    have hSame := hAll.resolve_right hAbsorbed
    rw [hSame, Nat.sub_self, List.take_zero,
      List.append_nil] at hTaken
    refine ⟨hInv.ibufTotal, hInv.obufTotal, hSent, ?_,
      hInv.rest, hGiven, hInv.nextOut, hInv.ibuf, hRoom⟩
    change takenInput h₀ (hDeflateSent flush env st).calls ++
      st.s.ibuf ++ st.strm.nextIn = _
    rw [hTaken]
    exact hInv.input

------------------------------------------------------------
-- Rounds
------------------------------------------------------------

variable {flush : Flush} {env : DeflateEnv}

/- A call on all of the buffers takes all or nothing. -/
theorem Buffered.sent
    (flush : Flush)
    (hInv : Buffered h₀ inTotal outTotal past offered st)
    (hEmpty : st.s.obuf.waiting = [])
    (hAbsorbs : AbsorbsAll inTotal outTotal env) :
    Buffered h₀ inTotal outTotal past offered
      (resultState (hDeflateSend flush env st)) := by
  have hIbuf := hInv.ibuf
  have hTotal := hInv.obufTotal
  refine hInv.send hEmpty ?_
  exact zedcDeflate_all_or_nothing hAbsorbs
    (by simp only [sendCall]; omega)
    (by simp only [sendCall]; omega)

/- What holds in the state in which input is sent. -/
structure SendOk
    (h₀ : DeflStream)
    (offered : List UInt8)
    (flush : Flush)
    (st : HDeflate) : Prop where
  empty : st.s.obuf.waiting = []
  last :
    ∀ env,
      (sendCall flush env st).flush ≠ .noFlush →
        st.strm.nextIn = [] ∧
          takenInput h₀ st.calls ++
            (sendCall flush env st).nextIn = offered

theorem Buffered.sendOk
    (flush : Flush)
    (hInv : Buffered h₀ inTotal outTotal past offered st)
    (hEmpty : st.s.obuf.waiting = []) :
    SendOk h₀ (past ++ offered) flush st := by
  refine ⟨hEmpty, fun env hFlush => ?_⟩
  have hNone : st.strm.nextIn = [] := by
    by_contra hMore
    exact hFlush (if_pos hMore)
  have hInput := hInv.input
  rw [hNone, List.append_nil] at hInput
  exact ⟨hNone, hInput⟩

theorem Buffered.round
    (flush : Flush)
    (hInv : Buffered h₀ inTotal outTotal past offered st)
    (hAbsorbs : AbsorbsAll inTotal outTotal env) :
    (∀ m ∈ roundMoments flush env st,
      Buffered h₀ inTotal outTotal past offered m) ∧
    (∀ m ∈ roundSends flush st, SendOk h₀ (past ++ offered) flush m) ∧
    Buffered h₀ inTotal outTotal past offered
      (resultState (hDeflateRound flush env st)) := by
  rcases hInv.collect with ⟨hMid, hEmpty⟩
  have hRead := hInv.read
  have hEnd :
      ∀ {st' : HDeflate},
        Buffered h₀ inTotal outTotal past offered st' →
          Buffered h₀ inTotal outTotal past offered
            (resultState (hDeflateRoundEnd flush st')) := by
    intro st' hInv'
    have hOutcome := hDeflateRoundEnd_outcome flush st'
    generalize hDeflateRoundEnd flush st' = result at *
    cases hOutcome with
    | ok _ => exact hInv'.flush.1
    | streamEnd => exact hInv'.flush.1
    | again _ _ => exact hInv'.flush.1
  unfold roundMoments roundSends hDeflateRound
  simp only
  by_cases hFull : (hDeflateCollect st).strm.availOut = 0
  · simp only [hFull, if_true]
    refine ⟨?_, fun m hMem => by simp at hMem, hMid⟩
    intro m hMem
    simp only [List.append_nil, List.mem_cons,
      List.not_mem_nil, or_false] at hMem
    rcases hMem with rfl | rfl
    · exact hRead
    · exact hMid
  · have hNone := hEmpty hFull
    simp only [hFull, if_false]
    by_cases hSend :
        flush ≠ .noFlush ∨
          (hDeflateCollect st).s.ibufAvail = 0
    · have hSent := hMid.sent flush hNone hAbsorbs
      simp only [hSend, if_true]
      refine ⟨?_, ?_, ?_⟩
      · cases hResult :
            hDeflateSend flush env (hDeflateCollect st) with
        | inl ret =>
            rw [hResult] at hSent
            intro m hMem
            simp only [List.cons_append, List.nil_append,
              List.mem_cons, List.not_mem_nil, or_false]
              at hMem
            rcases hMem with rfl | rfl | rfl
            · exact hRead
            · exact hMid
            · exact hSent
        | inr sent =>
            rw [hResult] at hSent
            intro m hMem
            simp only [List.cons_append, List.nil_append,
              List.mem_cons, List.not_mem_nil, or_false]
              at hMem
            rcases hMem with rfl | rfl | rfl | rfl
            · exact hRead
            · exact hMid
            · exact hSent
            · exact (Buffered.flush hSent).1
      · intro m hMem
        rw [List.mem_singleton.mp hMem]
        exact hMid.sendOk flush hNone
      · cases hResult :
            hDeflateSend flush env (hDeflateCollect st) with
        | inl ret =>
            rw [hResult] at hSent
            exact hSent
        | inr sent =>
            rw [hResult] at hSent
            exact hEnd hSent
    · simp only [hSend, if_false]
      refine ⟨?_, fun m hMem => by simp at hMem, hEnd hMid⟩
      intro m hMem
      simp only [List.cons_append, List.nil_append,
        List.mem_cons, List.not_mem_nil, or_false] at hMem
      rcases hMem with rfl | rfl | rfl
      · exact hRead
      · exact hMid
      · exact hMid.flush.1

end Steps

------------------------------------------------------------
-- Runs
------------------------------------------------------------

/- A call, what it returned, and the input it consumed. -/
structure HDeflateEvent where
  call : HDeflateCall
  rc : Rc
  consumed : List UInt8

/- All the input that calls have consumed. -/
def consumedInput (history : List HDeflateEvent) :
    List UInt8 :=
  history.flatMap HDeflateEvent.consumed

/-
  The input consumed from the caller is what `zedc_deflate`
  took, or was passed as far as it absorbs all, and what waits
  in the input buffer; the output of `zedc_deflate` is what
  the caller got and what waits in the output buffer, and
  `obuf_avail` tells how much that is.
-/
structure Transparent
    (h₀ : DeflStream)
    (consumed : List UInt8)
    (st : HDeflate) : Prop where
  taken :
    takenInput h₀ st.calls ++ st.s.ibuf = consumed
  passed :
    AllAbsorbed h₀ st.calls →
      passedInput st.calls ++ st.s.ibuf = consumed
  given :
    st.strm.out ++ st.s.obuf.waiting =
      givenOutput h₀ st.calls
  avail :
    st.s.obuf.avail = st.s.obuf.total - st.s.obuf.bytes

section Runs

variable {h₀ : DeflStream} {inTotal outTotal : Nat}
variable {past offered : List UInt8} {st st' : HDeflate}

theorem Buffered.transparent
    (hInv : Buffered h₀ inTotal outTotal past offered st) :
    Transparent h₀
      (past ++
        offered.take
          (offered.length - st.strm.nextIn.length)) st := by
  have hTaken :
      takenInput h₀ st.calls ++ st.s.ibuf =
        past ++
          offered.take
            (offered.length - st.strm.nextIn.length) := by
    rcases hInv.rest with ⟨used, hUsed⟩
    have hInput := hInv.input
    rw [← hUsed, ← List.append_assoc] at hInput
    rw [← hUsed, List.length_append, Nat.add_sub_cancel,
      List.take_left]
    exact List.append_cancel_right hInput
  refine ⟨hTaken, fun hAll => ?_, hInv.output, ?_⟩
  · rw [← takenInput_of_absorbed h₀ st.calls hAll]
    exact hTaken
  · have hObuf := hInv.obuf
    rw [Obuf.length_waiting] at hObuf
    rw [hInv.obufTotal]
    omega

/- The caller sets up its stream for a call. -/
theorem Buffered.callStart
    (c : HDeflateCall)
    (hInv : Buffered h₀ inTotal outTotal past offered st) :
    Buffered h₀ inTotal outTotal
      (past ++
        offered.take
          (offered.length - st.strm.nextIn.length))
      c.nextIn (callStart c st) := by
  have hTaken := hInv.transparent.taken
  have hStart :
      (Hardware.callStart c st).strm.nextIn = c.nextIn ∧
        (Hardware.callStart c st).strm.out = st.strm.out ∧
        (Hardware.callStart c st).strm.nextOut =
          st.strm.out.length := by
    unfold Hardware.callStart prepCrcOrAdler
    split <;> exact ⟨rfl, rfl, rfl⟩
  rcases hStart with ⟨hNextIn, hOut, hNextOut⟩
  refine ⟨hInv.ibufTotal, hInv.obufTotal, hInv.stream, ?_,
    ?_, ?_, ?_, hInv.ibuf, hInv.obuf⟩
  · rw [hNextIn, ← hTaken]
    rfl
  · rw [hNextIn]
  · rw [hOut]
    exact hInv.output
  · rw [hNextOut, hOut]

/- A buffered call, in terms of its rounds. -/
theorem hDeflate_callStart
    (c : HDeflateCall)
    (hBuffered : st.s.ibufTotal ≠ 0) :
    hDeflate c.flush c.env
        { st with
          strm := st.strm.offer c.nextIn c.availOut } =
      hDeflateLoop c.flush (c.nextIn.length + 2) c.env
        (callStart c st) := by
  unfold hDeflate
  rw [if_neg hBuffered]
  rfl

/- `h_deflateBound`, `pageSize` being `_SC_PAGESIZE`. -/
def hDeflateBound (pageSize sourceLen : Nat) : Nat :=
  sourceLen * 15 / 8 + pageSize

end Runs

------------------------------------------------------------
-- More Input than the Buffer Holds
------------------------------------------------------------

/- A stream with a buffer of four bytes. -/
def smallHw : HDeflate :=
  hDeflateInit echoStream 4 (hDeflateBound 256 4)

/- A flush of six bytes. -/
def sixBytesCall : HDeflateCall where
  nextIn := [1, 2, 3, 4, 5, 6]
  availOut := 64
  flush := .syncFlush
  env := fun _ => echoCall.env

end Hardware
