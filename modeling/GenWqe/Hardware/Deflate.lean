import GenWqe.Deflate.Flush
import GenWqe.Hardware.Stream

/-
  `h_deflate`: input is collected in an internal buffer, which
  is compressed into another one when it is full or a flush is
  asked for, or the caller's buffers are used directly where
  buffering is off.

  Key definitions include:
    * `DeflateHw`, `HDeflate`
    * `hReadIbuf`, `hDeflateSend`, `hDeflateRound`
    * `hDeflate`

  Main results:
    * `hDeflateRound_keeps`, `hDeflateLoop_keeps`
    * `hDeflateStep_inv`
    * `hDeflate_returns`
-/

------------------------------------------------------------
-- The State
------------------------------------------------------------

namespace Hardware

open Zedc

/-
  The compression side of `struct hw_state`. `ibuf` are the
  bytes between `ibuf_base` and `ibuf`.
-/
structure DeflateHw where
  h : DeflStream
  rc : Rc
  ibufTotal : Nat
  ibufAvail : Nat
  ibuf : List UInt8
  obuf : Obuf

/-
  The caller's stream, the hardware state behind it, and as a
  history variable, which no code reads, the calls of
  `zedc_deflate` made so far.
-/
structure HDeflate where
  strm : ZStream
  s : DeflateHw
  calls : List DeflateLabel

/-
  What `h_deflateInit2_` leaves for a stream that is set up
  and buffers of the given sizes.
-/
def hDeflateInit
    (h : DeflStream)
    (ibufTotal obufTotal : Nat) : HDeflate where
  strm := ZStream.initial
  s :=
    { h := h
      rc := .ok
      ibufTotal := ibufTotal
      ibufAvail := ibufTotal
      ibuf := []
      obuf := Obuf.initial obufTotal }
  calls := []

------------------------------------------------------------
-- The Parts of a Round
------------------------------------------------------------

/- `h_read_ibuf` -/
def hReadIbuf (st : HDeflate) : HDeflate :=
  if st.s.ibufAvail = 0 ∨ st.strm.nextIn = [] then st
  else
    let tocopy := min st.strm.nextIn.length st.s.ibufAvail
    { st with
      s :=
        { st.s with
          ibuf := st.s.ibuf ++ st.strm.nextIn.take tocopy
          ibufAvail := st.s.ibufAvail - tocopy }
      strm :=
        { st.strm with
          nextIn := st.strm.nextIn.drop tocopy
          totalIn := st.strm.totalIn + tocopy } }

/- `h_flush_obuf` on the whole state. -/
def hDeflateFlushObuf (st : HDeflate) : HDeflate :=
  let (obuf, strm) := hFlushObuf st.s.obuf st.strm
  { st with s := { st.s with obuf := obuf }, strm := strm }

/- `__fixup_crc_or_adler` -/
def fixupCrcOrAdler
    (z : ZStream) (h : DeflStream) : ZStream :=
  { z with
    adler :=
      if h.format = .gzip then h.crc32 else h.adler32 }

/- `__prep_crc_or_adler` -/
def prepCrcOrAdler
    (z : ZStream) (h : DeflStream) : ZStream :=
  if z.totalIn = 0 then
    { z with adler := if h.format = .zlib then 1 else 0 }
  else z

/- The bytes that a call of `zedc_deflate` has stored. -/
def newOutput (h h' : DeflStream) : List UInt8 :=
  h'.nextOut.drop h.nextOut.length

/- `__deflate`, for a call on the given buffers. -/
def hDeflateCall
    (c : DeflateCall) (st : HDeflate) : HDeflate :=
  let ret := c.ret st.s.h
  { strm := fixupCrcOrAdler st.strm ret.strm
    s := { st.s with h := ret.strm, rc := ret.rc }
    calls := st.calls ++ [c.label st.s.h] }

/- The call that sends the collected input to the card. -/
def sendCall
    (flush : Flush)
    (env : DeflateEnv)
    (st : HDeflate) : DeflateCall where
  nextIn := st.s.ibuf
  availOut := st.s.obuf.total
  flush := if st.strm.nextIn ≠ [] then .noFlush else flush
  env := env

/- The state behind that call, with its output in `obuf`. -/
def hDeflateSent
    (flush : Flush)
    (env : DeflateEnv)
    (st : HDeflate) : HDeflate :=
  let sent := hDeflateCall (sendCall flush env st) st
  { sent with
    s :=
      { sent.s with
        obuf :=
          { total := st.s.obuf.total
            avail := sent.s.h.availOut
            buf := newOutput st.s.h sent.s.h
            next := 0 } } }

/- The input buffer empty again. -/
def hDeflateResetIbuf (st : HDeflate) : HDeflate :=
  { st with
    s :=
      { st.s with
        ibuf := []
        ibufAvail := st.s.ibufTotal } }

/-
  The hardware part of a round. On the left not all input was
  absorbed, which ends the call.
-/
def hDeflateSend
    (flush : Flush)
    (env : DeflateEnv)
    (st : HDeflate) : Sum (Rc × HDeflate) HDeflate :=
  let sent := hDeflateSent flush env st
  if sent.s.h.nextIn = [] then .inr (hDeflateResetIbuf sent)
  else .inl (.streamError, sent)

/- The end of a round, with what was sent given out. -/
def hDeflateRoundEnd
    (flush : Flush)
    (st : HDeflate) : Sum (Rc × HDeflate) HDeflate :=
  let st := hDeflateFlushObuf st
  if st.strm.availOut = 0 then .inl (.ok, st)
  else if
      flush = .finish ∧ st.s.rc = .streamEnd ∧
        st.strm.nextIn = [] ∧ st.s.ibuf = [] ∧
        st.s.obuf.bytes = 0 then
    .inl (.streamEnd, st)
  else if st.strm.nextIn = [] then .inl (.ok, st)
  else .inr st

/- The start of a round: collect input, give out output. -/
def hDeflateCollect (st : HDeflate) : HDeflate :=
  hDeflateFlushObuf (hReadIbuf st)

/-
  One round of the loop in `h_deflate`. On the left the call
  returns, on the right another round follows.
-/
def hDeflateRound
    (flush : Flush)
    (env : DeflateEnv)
    (st : HDeflate) : Sum (Rc × HDeflate) HDeflate :=
  let st := hDeflateCollect st
  if st.strm.availOut = 0 then .inl (.ok, st)
  else if flush ≠ .noFlush ∨ st.s.ibufAvail = 0 then
    match hDeflateSend flush env st with
    | .inl ret => .inl ret
    | .inr st => hDeflateRoundEnd flush st
  else hDeflateRoundEnd flush st

/-
  At most `fuel` rounds; `env` gives the surroundings of each
  round by its number.
-/
def hDeflateLoop (flush : Flush) :
    Nat → (Nat → DeflateEnv) → HDeflate →
      Option (Rc × HDeflate)
  | 0, _, _ => none
  | fuel + 1, env, st =>
      match hDeflateRound flush (env 0) st with
      | .inl ret => some ret
      | .inr st =>
          hDeflateLoop flush fuel (fun i => env (i + 1)) st

/- The call where buffering is off. -/
def hDeflateDirect
    (flush : Flush)
    (env : DeflateEnv)
    (st : HDeflate) : Rc × HDeflate :=
  -- stream_zlib_to_zedc
  let h :=
    { st.s.h with
      totalIn := st.strm.totalIn
      totalOut := st.strm.totalOut }
  let sent :=
    hDeflateCall
      ⟨st.strm.nextIn, st.strm.availOut, flush, env⟩
      { st with s := { st.s with h := h } }
  -- stream_zedc_to_zlib
  (sent.s.rc,
    { sent with
      strm :=
        { sent.strm with
          nextIn := sent.s.h.nextIn
          totalIn := sent.s.h.totalIn
          out :=
            storeAt sent.strm.out sent.strm.nextOut
              (newOutput h sent.s.h)
          nextOut :=
            sent.strm.nextOut + (newOutput h sent.s.h).length
          availOut := sent.s.h.availOut
          totalOut := sent.s.h.totalOut } })

/- `h_deflate` -/
def hDeflate
    (flush : Flush)
    (env : Nat → DeflateEnv)
    (st : HDeflate) : Option (Rc × HDeflate) :=
  if st.s.ibufTotal = 0 then
    some (hDeflateDirect flush (env 0) st)
  else
    hDeflateLoop flush (st.strm.nextIn.length + 2) env
      { st with strm := prepCrcOrAdler st.strm st.s.h }

------------------------------------------------------------
-- Runs
------------------------------------------------------------

/- The arguments of one call of `h_deflate`. -/
structure HDeflateCall where
  nextIn : List UInt8
  availOut : Nat
  flush : Flush
  env : Nat → DeflateEnv

/- No call of `zedc_deflate` has failed so far. -/
def HDeflate.Clean (st : HDeflate) : Prop :=
  ∀ l ∈ st.calls, ¬ l.rc.IsNegative

/-
  One call of `h_deflate` with its return value, in which
  neither it nor `zedc_deflate` reports an error.
-/
def hDeflateStep
    (st : HDeflate)
    (l : HDeflateCall × Rc)
    (st' : HDeflate) : Prop :=
  hDeflate l.1.flush l.1.env
      { st with
        strm := st.strm.offer l.1.nextIn l.1.availOut } =
    some (l.2, st') ∧
  ¬ l.2.IsNegative ∧ st'.Clean

/-
  What holds between calls and rounds: the calls made are a
  run of the stream, and what it has given out is with the
  caller or waits in the output buffer.
-/
structure HDeflateInv
    (h₀ : DeflStream) (st : HDeflate) : Prop where
  run : Run deflateStep h₀ st.calls st.s.h
  delivered :
    st.strm.out ++ st.s.obuf.waiting = st.s.h.nextOut
  nextOut : st.strm.nextOut = st.strm.out.length
  ibuf :
    st.s.ibuf.length + st.s.ibufAvail = st.s.ibufTotal
  direct : st.s.ibufTotal = 0 →
    st.strm.totalIn = st.s.h.totalIn ∧
    st.strm.totalOut = st.s.h.totalOut ∧
    st.s.obuf.waiting = []

theorem hDeflateInit_inv
    {h₀ : DeflStream}
    (hFresh : Fresh h₀)
    (ibufTotal obufTotal : Nat) :
    HDeflateInv h₀
      (hDeflateInit h₀ ibufTotal obufTotal) := by
  refine ⟨Run.start, ?_, rfl, ?_, ?_⟩
  · exact hFresh.nextOut.symm
  · simp [hDeflateInit]
  · intro _
    exact ⟨hFresh.totalIn.symm, hFresh.totalOut.symm, rfl⟩

/- The caller sets up its stream for a call. -/
theorem HDeflateInv.offer
    {h₀ : DeflStream}
    {st : HDeflate}
    (hInv : HDeflateInv h₀ st)
    (nextIn : List UInt8)
    (availOut : Nat) :
    HDeflateInv h₀
      { st with strm := st.strm.offer nextIn availOut } :=
  ⟨hInv.run, hInv.delivered, rfl, hInv.ibuf, hInv.direct⟩

/- What a part of a round leaves alone. -/
structure SameBehind (st st' : HDeflate) : Prop where
  h : st'.s.h = st.s.h
  calls : st'.calls = st.calls
  ibufTotal : st'.s.ibufTotal = st.s.ibufTotal
  obufTotal : st'.s.obuf.total = st.s.obuf.total

theorem SameBehind.trans
    {st st' st'' : HDeflate}
    (hFirst : SameBehind st st')
    (hSecond : SameBehind st' st'') :
    SameBehind st st'' :=
  ⟨hSecond.h.trans hFirst.h,
    hSecond.calls.trans hFirst.calls,
    hSecond.ibufTotal.trans hFirst.ibufTotal,
    hSecond.obufTotal.trans hFirst.obufTotal⟩

/- Collecting moves input from the caller to the buffer. -/
theorem hReadIbuf_spec
    {h₀ : DeflStream}
    {st : HDeflate}
    (hInv : HDeflateInv h₀ st)
    (hBuffered : st.s.ibufTotal ≠ 0) :
    HDeflateInv h₀ (hReadIbuf st) ∧
    SameBehind st (hReadIbuf st) ∧
    (hReadIbuf st).s.ibuf ++ (hReadIbuf st).strm.nextIn =
      st.s.ibuf ++ st.strm.nextIn := by
  unfold hReadIbuf
  split
  · exact ⟨hInv, ⟨rfl, rfl, rfl, rfl⟩, rfl⟩
  · have hIbuf := hInv.ibuf
    refine ⟨⟨hInv.run, hInv.delivered, hInv.nextOut, ?_, ?_⟩,
      ⟨rfl, rfl, rfl, rfl⟩, ?_⟩
    · simp only [List.length_append, List.length_take]
      omega
    · exact fun hZero => absurd hZero hBuffered
    · simp only [List.append_assoc, List.take_append_drop]

/- Giving out moves output from the buffer to the caller. -/
theorem hDeflateFlushObuf_spec
    {h₀ : DeflStream}
    {st : HDeflate}
    (hInv : HDeflateInv h₀ st)
    (hBuffered : st.s.ibufTotal ≠ 0) :
    HDeflateInv h₀ (hDeflateFlushObuf st) ∧
    SameBehind st (hDeflateFlushObuf st) ∧
    (hDeflateFlushObuf st).s.ibuf = st.s.ibuf ∧
    (hDeflateFlushObuf st).strm.nextIn = st.strm.nextIn ∧
    ((hDeflateFlushObuf st).strm.availOut ≠ 0 →
      (hDeflateFlushObuf st).s.obuf.waiting = []) := by
  rcases hFlushObuf_spec st.s.obuf st.strm hInv.nextOut with
    ⟨k, hEq, hWaiting, hSpace, hEnd⟩
  have hWhole := hInv.delivered
  unfold hDeflateFlushObuf
  rw [hEq]
  refine ⟨⟨hInv.run, ?_, ?_, hInv.ibuf, ?_⟩,
    ⟨rfl, rfl, rfl, rfl⟩, rfl, rfl, ?_⟩
  · simp only [Obuf.waiting_giveOut, ZStream.take,
      List.append_assoc, List.take_append_drop]
    exact hWhole
  · simp only [ZStream.take, List.length_append,
      hInv.nextOut]
  · exact fun hZero => absurd hZero hBuffered
  · intro hLeft
    simp only [ZStream.take, List.length_take] at hLeft
    simp only [Obuf.waiting_giveOut]
    exact List.drop_eq_nil_of_le (by omega)

/-
  The call of `zedc_deflate` that a round makes, as a step of
  the stream.
-/
def sentLabel
    (flush : Flush)
    (env : DeflateEnv)
    (st : HDeflate) : DeflateLabel :=
  (sendCall flush env st).label st.s.h

/- What a round has after sending its input. -/
structure SentTo
    (h₀ : DeflStream)
    (flush : Flush)
    (env : DeflateEnv)
    (st st' : HDeflate) : Prop where
  calls : st'.calls = st.calls ++ [sentLabel flush env st]
  h : st'.s.h = ((sendCall flush env st).ret st.s.h).strm
  nextIn : st'.strm.nextIn = st.strm.nextIn
  ibufTotal : st'.s.ibufTotal = st.s.ibufTotal
  obufTotal : st'.s.obuf.total = st.s.obuf.total
  inv : ¬ (sentLabel flush env st).rc.IsNegative →
    HDeflateInv h₀ st'

theorem deflateStep_sentLabel
    {flush : Flush}
    {env : DeflateEnv}
    {st : HDeflate}
    (hOk : ¬ (sentLabel flush env st).rc.IsNegative) :
    deflateStep st.s.h (sentLabel flush env st)
      ((sendCall flush env st).ret st.s.h).strm :=
  ⟨rfl, hOk⟩

/- Sending from a drained output buffer. -/
theorem hDeflateSend_spec
    {h₀ : DeflStream}
    {st : HDeflate}
    (flush : Flush)
    (env : DeflateEnv)
    (hInv : HDeflateInv h₀ st)
    (hBuffered : st.s.ibufTotal ≠ 0)
    (hWaiting : st.s.obuf.waiting = []) :
    (∃ st', hDeflateSend flush env st =
        .inl (.streamError, st') ∧
      SentTo h₀ flush env st st') ∨
    ∃ st', hDeflateSend flush env st = .inr st' ∧
      SentTo h₀ flush env st st' ∧
      st'.s.h.nextIn = [] ∧
      st'.s.ibuf = [] ∧
      st'.s.ibufAvail = st'.s.ibufTotal := by
  have hGrows :
      st.s.h.nextOut ++
          newOutput st.s.h
            ((sendCall flush env st).ret st.s.h).strm =
        ((sendCall flush env st).ret
          st.s.h).strm.nextOut := by
    have hPrefix := prefix_zedcDeflate
      (sendCall flush env st).flush
      (sendCall flush env st).env
      { st.s.h with
        nextIn := (sendCall flush env st).nextIn
        availOut := (sendCall flush env st).availOut }
    exact (List.prefix_iff_eq_append.mp hPrefix)
  have hOut : st.strm.out = st.s.h.nextOut := by
    have hDelivered := hInv.delivered
    rwa [hWaiting, List.append_nil] at hDelivered
  unfold hDeflateSend
  by_cases hAbsorbed :
      (hDeflateSent flush env st).s.h.nextIn = []
  · rw [if_pos hAbsorbed]
    refine Or.inr ⟨_, rfl, ⟨rfl, rfl, rfl, rfl, rfl, ?_⟩,
      hAbsorbed, rfl, rfl⟩
    intro hOk
    refine ⟨Run.next hInv.run (deflateStep_sentLabel hOk),
      ?_, hInv.nextOut, ?_, ?_⟩
    · show st.strm.out ++ newOutput st.s.h _ = _
      rw [hOut]
      exact hGrows
    · simp [hDeflateResetIbuf]
    · exact fun hZero => absurd hZero hBuffered
  · rw [if_neg hAbsorbed]
    refine Or.inl ⟨_, rfl, ⟨rfl, rfl, rfl, rfl, rfl, ?_⟩⟩
    intro hOk
    refine ⟨Run.next hInv.run (deflateStep_sentLabel hOk),
      ?_, hInv.nextOut, hInv.ibuf, ?_⟩
    · show st.strm.out ++ newOutput st.s.h _ = _
      rw [hOut]
      exact hGrows
    · exact fun hZero => absurd hZero hBuffered

/- How a round can go. -/
inductive RoundOutcome
    (flush : Flush) (env : DeflateEnv) (st : HDeflate) :
    Sum (Rc × HDeflate) HDeflate → Prop
  | full :
      (hDeflateCollect st).strm.availOut = 0 →
      RoundOutcome flush env st
        (.inl (.ok, hDeflateCollect st))
  | kept :
      (hDeflateCollect st).strm.availOut ≠ 0 →
      flush = .noFlush →
      (hDeflateCollect st).s.ibufAvail ≠ 0 →
      RoundOutcome flush env st
        (hDeflateRoundEnd flush (hDeflateCollect st))
  | refused
      {st' : HDeflate} :
      (hDeflateCollect st).strm.availOut ≠ 0 →
      hDeflateSend flush env (hDeflateCollect st) =
        .inl (.streamError, st') →
      RoundOutcome flush env st (.inl (.streamError, st'))
  | sent
      {st' : HDeflate} :
      (hDeflateCollect st).strm.availOut ≠ 0 →
      hDeflateSend flush env (hDeflateCollect st) =
        .inr st' →
      RoundOutcome flush env st (hDeflateRoundEnd flush st')

theorem hDeflateRound_outcome
    (flush : Flush)
    (env : DeflateEnv)
    (st : HDeflate) :
    RoundOutcome flush env st
      (hDeflateRound flush env st) := by
  unfold hDeflateRound
  simp only
  by_cases hFull : (hDeflateCollect st).strm.availOut = 0
  · rw [if_pos hFull]
    exact .full hFull
  · rw [if_neg hFull]
    by_cases hSend :
        flush ≠ .noFlush ∨
          (hDeflateCollect st).s.ibufAvail = 0
    · rw [if_pos hSend]
      cases hSent :
          hDeflateSend flush env (hDeflateCollect st) with
      | inl ret =>
          rcases ret with ⟨rc, st'⟩
          have hRc : rc = .streamError := by
            unfold hDeflateSend at hSent
            simp only at hSent
            split at hSent
            · cases hSent
            · cases hSent
              rfl
          subst hRc
          exact .refused hFull hSent
      | inr st' => exact .sent hFull hSent
    · rw [if_neg hSend]
      rw [not_or, not_ne_iff] at hSend
      exact .kept hFull hSend.1 hSend.2

/- How the end of a round can go. -/
inductive RoundEndOutcome (st : HDeflate) :
    Sum (Rc × HDeflate) HDeflate → Prop
  | ok :
      (hDeflateFlushObuf st).strm.availOut = 0 ∨
        (hDeflateFlushObuf st).strm.nextIn = [] →
      RoundEndOutcome st (.inl (.ok, hDeflateFlushObuf st))
  | streamEnd :
      RoundEndOutcome st
        (.inl (.streamEnd, hDeflateFlushObuf st))
  | again :
      (hDeflateFlushObuf st).strm.availOut ≠ 0 →
      (hDeflateFlushObuf st).strm.nextIn ≠ [] →
      RoundEndOutcome st (.inr (hDeflateFlushObuf st))

theorem hDeflateRoundEnd_outcome
    (flush : Flush) (st : HDeflate) :
    RoundEndOutcome st (hDeflateRoundEnd flush st) := by
  unfold hDeflateRoundEnd
  simp only
  split_ifs with hFull hEnd hInput
  · exact .ok (Or.inl hFull)
  · exact .streamEnd
  · exact .ok (Or.inr hInput)
  · exact .again hFull hInput

/- The state that a round or call results in. -/
def resultState :
    Sum (Rc × HDeflate) HDeflate → HDeflate
  | .inl (_, st) => st
  | .inr st => st

/- What a round keeps, if no call of the stream failed. -/
structure RoundKeeps
    (h₀ : DeflStream) (st st' : HDeflate) : Prop where
  inv : st'.Clean → HDeflateInv h₀ st'
  calls : st.calls <+: st'.calls
  ibufTotal : st'.s.ibufTotal = st.s.ibufTotal
  obufTotal : st'.s.obuf.total = st.s.obuf.total

theorem hDeflateCollect_spec
    {h₀ : DeflStream}
    {st : HDeflate}
    (hInv : HDeflateInv h₀ st)
    (hBuffered : st.s.ibufTotal ≠ 0) :
    HDeflateInv h₀ (hDeflateCollect st) ∧
    SameBehind st (hDeflateCollect st) ∧
    (hDeflateCollect st).s.ibuf ++
        (hDeflateCollect st).strm.nextIn =
      st.s.ibuf ++ st.strm.nextIn ∧
    ((hDeflateCollect st).strm.availOut ≠ 0 →
      (hDeflateCollect st).s.obuf.waiting = []) := by
  rcases hReadIbuf_spec hInv hBuffered with
    ⟨hRead, hSame, hMoved⟩
  rcases hDeflateFlushObuf_spec hRead
      (by rwa [hSame.ibufTotal]) with
    ⟨hFlushed, hSame', hIbuf, hNextIn, hEmpty⟩
  unfold hDeflateCollect
  rw [hIbuf, hNextIn]
  exact ⟨hFlushed, hSame.trans hSame', hMoved, hEmpty⟩

theorem hDeflateFlushObuf_same (st : HDeflate) :
    SameBehind st (hDeflateFlushObuf st) := by
  have hTotal :
      (hFlushObuf st.s.obuf st.strm).1.total =
        st.s.obuf.total := by
    unfold hFlushObuf
    split_ifs <;> rfl
  exact ⟨rfl, rfl, rfl, hTotal⟩

theorem hDeflateRoundEnd_keeps
    {h₀ : DeflStream}
    {st : HDeflate}
    (flush : Flush)
    (hInv : st.Clean → HDeflateInv h₀ st)
    (hBuffered : st.s.ibufTotal ≠ 0) :
    RoundKeeps h₀ st
      (resultState (hDeflateRoundEnd flush st)) := by
  have hSame := hDeflateFlushObuf_same st
  have hKeeps : RoundKeeps h₀ st (hDeflateFlushObuf st) := by
    refine ⟨?_, by rw [hSame.calls], hSame.ibufTotal,
      hSame.obufTotal⟩
    intro hClean
    unfold HDeflate.Clean at hClean
    rw [hSame.calls] at hClean
    exact (hDeflateFlushObuf_spec (hInv hClean) hBuffered).1
  have hOutcome := hDeflateRoundEnd_outcome flush st
  generalize hDeflateRoundEnd flush st = result at *
  cases hOutcome with
  | ok _ => exact hKeeps
  | streamEnd => exact hKeeps
  | again _ _ => exact hKeeps

/- A call that was sent without an error keeps the rest. -/
theorem SentTo.keeps
    {h₀ : DeflStream}
    {flush : Flush}
    {env : DeflateEnv}
    {st st' : HDeflate}
    (hSent : SentTo h₀ flush env st st') :
    RoundKeeps h₀ st st' := by
  refine ⟨?_, ?_, hSent.ibufTotal, hSent.obufTotal⟩
  · intro hClean
    apply hSent.inv
    apply hClean
    rw [hSent.calls]
    simp
  · rw [hSent.calls]
    exact List.prefix_append _ _

theorem RoundKeeps.trans
    {h₀ : DeflStream}
    {st st' st'' : HDeflate}
    (hFirst : RoundKeeps h₀ st st')
    (hSecond : RoundKeeps h₀ st' st'') :
    RoundKeeps h₀ st st'' :=
  ⟨hSecond.inv, hFirst.calls.trans hSecond.calls,
    hSecond.ibufTotal.trans hFirst.ibufTotal,
    hSecond.obufTotal.trans hFirst.obufTotal⟩

/- A round keeps the invariant while no call fails. -/
theorem hDeflateRound_keeps
    {h₀ : DeflStream}
    {st : HDeflate}
    (flush : Flush)
    (env : DeflateEnv)
    (hInv : HDeflateInv h₀ st)
    (hBuffered : st.s.ibufTotal ≠ 0) :
    RoundKeeps h₀ st
      (resultState (hDeflateRound flush env st)) := by
  rcases hDeflateCollect_spec hInv hBuffered with
    ⟨hMid, hSame, _, hEmpty⟩
  have hCollected : RoundKeeps h₀ st (hDeflateCollect st) :=
    ⟨fun _ => hMid, by rw [hSame.calls], hSame.ibufTotal,
      hSame.obufTotal⟩
  have hBuffered' :
      (hDeflateCollect st).s.ibufTotal ≠ 0 := by
    rwa [hSame.ibufTotal]
  have hOutcome := hDeflateRound_outcome flush env st
  generalize hDeflateRound flush env st = result at *
  cases hOutcome with
  | full _ => exact hCollected
  | kept _ _ _ =>
      exact hCollected.trans
        (hDeflateRoundEnd_keeps flush (fun _ => hMid)
          hBuffered')
  | refused hSpace hSend =>
      rcases hDeflateSend_spec flush env hMid hBuffered'
          (hEmpty hSpace) with
        ⟨st₁, hEq, hSent⟩ | ⟨st₁, hEq, _⟩
      · rw [hSend] at hEq
        cases hEq
        exact hCollected.trans hSent.keeps
      · rw [hSend] at hEq
        cases hEq
  | sent hSpace hSend =>
      rcases hDeflateSend_spec flush env hMid hBuffered'
          (hEmpty hSpace) with
        ⟨st₁, hEq, _⟩ | ⟨st₁, hEq, hSent, _⟩
      · rw [hSend] at hEq
        cases hEq
      · rw [hSend] at hEq
        cases hEq
        have hKeeps := hSent.keeps
        exact hCollected.trans (hKeeps.trans
          (hDeflateRoundEnd_keeps flush hKeeps.inv
            (by rwa [hSent.ibufTotal])))

theorem calls_hDeflateCollect (st : HDeflate) :
    (hDeflateCollect st).calls = st.calls := by
  unfold hDeflateCollect hReadIbuf
  rw [(hDeflateFlushObuf_same _).calls]
  split <;> rfl

theorem calls_hDeflateSend
    (flush : Flush)
    (env : DeflateEnv)
    (st : HDeflate) :
    st.calls <+:
      (resultState (hDeflateSend flush env st)).calls := by
  unfold hDeflateSend
  simp only
  split
  · exact List.prefix_append _ _
  · exact List.prefix_append _ _

theorem calls_hDeflateRoundEnd
    (flush : Flush) (st : HDeflate) :
    (resultState (hDeflateRoundEnd flush st)).calls =
      st.calls := by
  have hOutcome := hDeflateRoundEnd_outcome flush st
  generalize hDeflateRoundEnd flush st = result at *
  cases hOutcome with
  | ok _ => exact (hDeflateFlushObuf_same st).calls
  | streamEnd => exact (hDeflateFlushObuf_same st).calls
  | again _ _ => exact (hDeflateFlushObuf_same st).calls

/- A round adds to the calls made and drops none. -/
theorem calls_hDeflateRound
    (flush : Flush)
    (env : DeflateEnv)
    (st : HDeflate) :
    st.calls <+:
      (resultState (hDeflateRound flush env st)).calls := by
  have hCollect := calls_hDeflateCollect st
  have hSends :=
    calls_hDeflateSend flush env (hDeflateCollect st)
  have hOutcome := hDeflateRound_outcome flush env st
  generalize hDeflateRound flush env st = result at *
  rw [hCollect] at hSends
  cases hOutcome with
  | full _ =>
      rw [← hCollect]
      exact List.prefix_refl _
  | kept _ _ _ => rw [calls_hDeflateRoundEnd, hCollect]
  | refused _ hSend =>
      rw [hSend] at hSends
      exact hSends
  | sent _ hSend =>
      rw [hSend] at hSends
      rw [calls_hDeflateRoundEnd]
      exact hSends

theorem calls_hDeflateLoop
    {flush : Flush}
    {fuel : Nat}
    {env : Nat → DeflateEnv}
    {st st' : HDeflate}
    {rc : Rc}
    (hLoop :
      hDeflateLoop flush fuel env st = some (rc, st')) :
    st.calls <+: st'.calls := by
  induction fuel generalizing env st with
  | zero => cases hLoop
  | succ fuel ih =>
      have hRound := calls_hDeflateRound flush (env 0) st
      unfold hDeflateLoop at hLoop
      cases hResult : hDeflateRound flush (env 0) st with
      | inl ret =>
          rw [hResult] at hLoop hRound
          cases hLoop
          exact hRound
      | inr st₁ =>
          rw [hResult] at hLoop hRound
          exact hRound.trans (ih hLoop)

/- The whole loop keeps what each of its rounds keeps. -/
theorem hDeflateLoop_keeps
    {h₀ : DeflStream}
    {flush : Flush}
    {fuel : Nat}
    {env : Nat → DeflateEnv}
    {st st' : HDeflate}
    {rc : Rc}
    (hInv : HDeflateInv h₀ st)
    (hBuffered : st.s.ibufTotal ≠ 0)
    (hLoop :
      hDeflateLoop flush fuel env st = some (rc, st'))
    (hClean : st'.Clean) :
    RoundKeeps h₀ st st' := by
  induction fuel generalizing env st with
  | zero => cases hLoop
  | succ fuel ih =>
      have hRound :=
        hDeflateRound_keeps flush (env 0) hInv hBuffered
      unfold hDeflateLoop at hLoop
      cases hResult : hDeflateRound flush (env 0) st with
      | inl ret =>
          rw [hResult] at hLoop hRound
          cases hLoop
          exact hRound
      | inr st₁ =>
          rw [hResult] at hLoop hRound
          have hClean₁ : st₁.Clean := fun l hl =>
            hClean l ((calls_hDeflateLoop hLoop).subset hl)
          exact hRound.trans
            (ih (hRound.inv hClean₁)
              (by rwa [hRound.ibufTotal]) hLoop)

/- A call with buffering off is one step of the stream. -/
theorem hDeflateDirect_spec
    {h₀ : DeflStream}
    {st : HDeflate}
    (flush : Flush)
    (env : DeflateEnv)
    (hInv : HDeflateInv h₀ st)
    (hDirect : st.s.ibufTotal = 0)
    (hClean : (hDeflateDirect flush env st).2.Clean) :
    HDeflateInv h₀ (hDeflateDirect flush env st).2 ∧
    ∃ l,
      deflateStep st.s.h l
        (hDeflateDirect flush env st).2.s.h ∧
      l.call =
        ⟨st.strm.nextIn, st.strm.availOut, flush, env⟩ ∧
      l.rc = (hDeflateDirect flush env st).1 ∧
      (hDeflateDirect flush env st).2.calls =
        st.calls ++ [l] := by
  rcases hInv.direct hDirect with
    ⟨hTotalIn, hTotalOut, hWaiting⟩
  generalize hCall :
    (⟨st.strm.nextIn, st.strm.availOut, flush, env⟩ :
      DeflateCall) = c
  have hSame :
      ({ st.s.h with
          totalIn := st.strm.totalIn
          totalOut := st.strm.totalOut } : DeflStream) =
        st.s.h := by
    rw [hTotalIn, hTotalOut]
  have hStep :
      deflateStep st.s.h (c.label st.s.h)
        (c.ret st.s.h).strm := by
    refine ⟨rfl, ?_⟩
    apply hClean
    simp only [hDeflateDirect, hDeflateCall, hSame, hCall]
    simp
  have hOut : st.strm.out = st.s.h.nextOut := by
    have hDelivered := hInv.delivered
    rwa [hWaiting, List.append_nil] at hDelivered
  have hGrows :
      st.s.h.nextOut ++
          newOutput st.s.h (c.ret st.s.h).strm =
        (c.ret st.s.h).strm.nextOut :=
    List.prefix_iff_eq_append.mp
      (prefix_zedcDeflate c.flush c.env
        { st.s.h with
          nextIn := c.nextIn
          availOut := c.availOut })
  simp only [hDeflateDirect, hDeflateCall, hSame, hCall]
  refine ⟨⟨Run.next hInv.run hStep, ?_, ?_, hInv.ibuf, ?_⟩,
    _, hStep, rfl, rfl, rfl⟩
  · simp only [fixupCrcOrAdler, hInv.nextOut,
      storeAt_length, hWaiting, List.append_nil]
    rw [hOut]
    exact hGrows
  · simp only [fixupCrcOrAdler, hInv.nextOut,
      storeAt_length, List.length_append]
  · intro _
    exact ⟨rfl, rfl, hWaiting⟩

/- A call without errors keeps the invariant. -/
theorem hDeflateStep_inv
    {h₀ : DeflStream}
    {st st' : HDeflate}
    {l : HDeflateCall × Rc}
    (hInv : HDeflateInv h₀ st)
    (hStep : hDeflateStep st l st') :
    HDeflateInv h₀ st' ∧
      st'.s.ibufTotal = st.s.ibufTotal ∧
      st'.s.obuf.total = st.s.obuf.total := by
  rcases hStep with ⟨hCall, _, hClean⟩
  have hOffered := hInv.offer l.1.nextIn l.1.availOut
  unfold hDeflate at hCall
  by_cases hDirect : st.s.ibufTotal = 0
  · simp only [hDirect, if_true, Option.some.injEq] at hCall
    have hState := congrArg Prod.snd hCall
    simp only at hState
    subst hState
    exact
      ⟨(hDeflateDirect_spec _ _ hOffered hDirect hClean).1,
        rfl, rfl⟩
  · simp only [hDirect, if_false] at hCall
    have hPrep :
        HDeflateInv h₀
          { st with
            strm :=
              prepCrcOrAdler
                (st.strm.offer l.1.nextIn l.1.availOut)
                st.s.h } := by
      unfold prepCrcOrAdler
      split
      · exact ⟨hOffered.run, hOffered.delivered,
          hOffered.nextOut, hOffered.ibuf, hOffered.direct⟩
      · exact hOffered
    have hKeeps :=
      hDeflateLoop_keeps hPrep hDirect hCall hClean
    exact ⟨hKeeps.inv hClean, hKeeps.ibufTotal,
      hKeeps.obufTotal⟩

------------------------------------------------------------
-- The Loop Ends
------------------------------------------------------------

/- Input is left over only when the buffer is full. -/
theorem hReadIbuf_progress (st : HDeflate) :
    ((hReadIbuf st).strm.nextIn ≠ [] →
      (hReadIbuf st).s.ibufAvail = 0) ∧
    (hReadIbuf st).strm.nextIn.length ≤
      st.strm.nextIn.length ∧
    (st.s.ibufAvail ≠ 0 →
      (hReadIbuf st).strm.nextIn ≠ [] →
        (hReadIbuf st).strm.nextIn.length <
          st.strm.nextIn.length) := by
  unfold hReadIbuf
  split
  · rename_i hNothing
    refine ⟨hNothing.resolve_right, Nat.le_refl _, ?_⟩
    exact fun hSpace hInput =>
      absurd (hNothing.resolve_right hInput) hSpace
  · rename_i hSome
    rw [not_or] at hSome
    have hPos : 0 < st.strm.nextIn.length :=
      List.length_pos_of_ne_nil hSome.2
    refine ⟨?_, ?_, ?_⟩
    · intro hLeft
      have hLong := List.length_pos_of_ne_nil hLeft
      simp only [List.length_drop] at hLong ⊢
      omega
    · simp only [List.length_drop]
      omega
    · intro hSpace _
      simp only [List.length_drop]
      omega

theorem hDeflateFlushObuf_input (st : HDeflate) :
    (hDeflateFlushObuf st).strm.nextIn = st.strm.nextIn ∧
      (hDeflateFlushObuf st).s.ibufAvail =
        st.s.ibufAvail := by
  refine ⟨?_, rfl⟩
  unfold hDeflateFlushObuf hFlushObuf
  split_ifs <;> rfl

/-
  Where another round follows, the input buffer is empty and
  less input is left, unless the buffer was full before.
-/
theorem hDeflateRound_again
    {flush : Flush}
    {env : DeflateEnv}
    {st st' : HDeflate}
    (hAgain : hDeflateRound flush env st = .inr st') :
    st'.s.ibufTotal = st.s.ibufTotal ∧
    st'.s.ibufAvail = st.s.ibufTotal ∧
    st'.strm.nextIn ≠ [] ∧
    st'.strm.nextIn.length ≤ st.strm.nextIn.length ∧
    (st.s.ibufAvail ≠ 0 →
      st'.strm.nextIn.length < st.strm.nextIn.length) := by
  rcases hReadIbuf_progress st with ⟨hAll, hLe, hLess⟩
  have hInput := hDeflateFlushObuf_input (hReadIbuf st)
  change (hDeflateCollect st).strm.nextIn = _ ∧
    (hDeflateCollect st).s.ibufAvail = _ at hInput
  have hCollectTotal :
      (hDeflateCollect st).s.ibufTotal = st.s.ibufTotal := by
    unfold hDeflateCollect hReadIbuf
    rw [(hDeflateFlushObuf_same _).ibufTotal]
    split <;> rfl
  rw [← hInput.1] at hAll hLe hLess
  rw [← hInput.2] at hAll
  have hOutcome := hDeflateRound_outcome flush env st
  rw [hAgain] at hOutcome
  generalize hResult :
    (Sum.inr st' : Sum (Rc × HDeflate) HDeflate) = result
      at hOutcome
  cases hOutcome with
  | full _ => cases hResult
  | refused _ _ => cases hResult
  | kept _ _ hSpace =>
      have hEnd := hDeflateRoundEnd_outcome flush
        (hDeflateCollect st)
      rw [← hResult] at hEnd
      cases hEnd with
      | again _ hLeft =>
          rw [(hDeflateFlushObuf_input _).1] at hLeft
          exact absurd (hAll hLeft) hSpace
  | @sent st₁ _ hSend =>
      have hEnd := hDeflateRoundEnd_outcome flush st₁
      rw [← hResult] at hEnd
      unfold hDeflateSend at hSend
      simp only at hSend
      split at hSend
      · cases hSend
        cases hEnd with
        | again _ hLeft =>
            have hSame := hDeflateFlushObuf_input
              (hDeflateResetIbuf
                (hDeflateSent flush env
                  (hDeflateCollect st)))
            have hTotal := (hDeflateFlushObuf_same
              (hDeflateResetIbuf
                (hDeflateSent flush env
                  (hDeflateCollect st)))).ibufTotal
            have hNextIn :
                (hDeflateFlushObuf
                  (hDeflateResetIbuf
                    (hDeflateSent flush env
                      (hDeflateCollect st)))).strm.nextIn =
                  (hDeflateCollect st).strm.nextIn := hSame.1
            rw [hNextIn] at hLeft
            refine ⟨hTotal.trans hCollectTotal,
              hSame.2.trans hCollectTotal, ?_, ?_, ?_⟩
            · rwa [hNextIn]
            · rw [hNextIn]
              exact hLe
            · intro hSpace
              rw [hNextIn]
              exact hLess hSpace hLeft
      · cases hSend

/- A buffered call returns after finitely many rounds. -/
theorem hDeflateLoop_returns
    (flush : Flush)
    (fuel : Nat)
    (env : Nat → DeflateEnv)
    (st : HDeflate)
    (hBuffered : st.s.ibufTotal ≠ 0)
    (hFuel :
      st.strm.nextIn.length +
        (if st.s.ibufAvail = 0 then 2 else 1) ≤ fuel) :
    ∃ ret, hDeflateLoop flush fuel env st = some ret := by
  induction fuel generalizing env st with
  | zero =>
      split at hFuel <;> omega
  | succ fuel ih =>
      unfold hDeflateLoop
      cases hResult : hDeflateRound flush (env 0) st with
      | inl ret => exact ⟨ret, rfl⟩
      | inr st₁ =>
          rcases hDeflateRound_again hResult with
            ⟨hTotal, hAvail, _, hLe, hLess⟩
          apply ih
          · rwa [hTotal]
          · have hPos : st₁.s.ibufAvail ≠ 0 := by
              rwa [hAvail]
            rw [if_neg hPos]
            split at hFuel
            · omega
            · rename_i hSpace
              have hShorter := hLess hSpace
              omega

/- `h_deflate` always returns. -/
theorem hDeflate_returns
    (flush : Flush)
    (env : Nat → DeflateEnv)
    (st : HDeflate) :
    ∃ ret, hDeflate flush env st = some ret := by
  unfold hDeflate
  by_cases hDirect : st.s.ibufTotal = 0
  · rw [if_pos hDirect]
    exact ⟨_, rfl⟩
  · rw [if_neg hDirect]
    have hInput :
        (prepCrcOrAdler st.strm st.s.h).nextIn =
          st.strm.nextIn := by
      unfold prepCrcOrAdler
      split <;> rfl
    apply hDeflateLoop_returns
    · exact hDirect
    · simp only [hInput]
      split <;> omega

end Hardware
