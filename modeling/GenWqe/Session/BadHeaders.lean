import GenWqe.Formats.BadHeaders
import GenWqe.Session.InflateDecoding
import GenWqe.Session.InflateErrors

/-
  Errors over runs of `h_inflate`: while no call has returned
  one, the bytes looked at do not begin with a header that is
  invalid.

  Key definitions include:
    * `AtFront`
    * `NewStream`, `streamStep`
    * `lookedAt`

  Main results:
    * `AtFront.round`, `AtFront.call`
    * `errorsReported_iff`
-/

------------------------------------------------------------
-- In Front of the Header
------------------------------------------------------------

namespace Session

open Zedc Hardware

/-
  A session that has taken a piece of the fixed part of its
  header, and nothing else.
-/
structure AtFront
    (format : Format)
    (x : List UInt8)
    (st : HInflate) : Prop where
  format : st.s.h.format = format
  stream : Collecting x st.s.h
  place : st.strm.totalIn = st.s.h.totalIn
  waiting : st.s.obuf.waiting = []
  running : st.s.rc ≠ .streamEnd

/- What stays the same where no output waits. -/
structure SameBuffers (st st' : HInflate) : Prop where
  nextIn : st'.strm.nextIn = st.strm.nextIn
  totalIn : st'.strm.totalIn = st.strm.totalIn
  availOut : st'.strm.availOut = st.strm.availOut
  rc : st'.s.rc = st.s.rc

section Rounds

variable {disabled internal : Bool} {format : Format}
variable {x : List UInt8} {st st' : HInflate}
variable {flush : Flush} {env : InflateEnv}

theorem AtFront.flushed
    {k : Nat}
    (hFront : AtFront format x st)
    (hFlushed : FlushedObuf st st' k) :
    AtFront format x st' ∧ SameBuffers st st' := by
  have hNone : st.s.obuf.waiting.take k = [] := by
    rw [hFront.waiting, List.take_nil]
  rw [hFlushed.strm, hNone]
  refine ⟨⟨hFront.format, hFront.stream, hFront.place, ?_,
    hFront.running⟩, rfl, rfl, rfl, rfl⟩
  change (st.s.obuf.giveOut k).waiting = []
  rw [Obuf.waiting_giveOut, hFront.waiting, List.drop_nil]

/- The call that a round makes. -/
theorem AtFront.sent
    (hFront : AtFront format x st)
    (hIn : st.strm.nextIn <+: x.drop st.strm.totalIn)
    (hBad : BadFixed format x)
    (hSent : hInflateSent internal flush env st = some st') :
    (AtFront format x st' ∧ st'.s.rc = .ok ∧
        st'.strm.availOut = st.strm.availOut ∧
        ((hInflateOffer internal st).availOut ≠ 0 →
          st'.strm.nextIn = [])) ∨
      ∃ ret,
        zedcInflate flush env (hInflateOffer internal st) =
            some ret ∧
          st'.s.rc = ret.rc ∧ ret.rc.IsNegative := by
  rcases hInflateSent_some hSent with
    ⟨ret, hCall, -, hH, hRc, hState⟩
  have hOffer :
      Collecting x (hInflateOffer internal st) :=
    hFront.stream.congr rfl rfl
      ⟨⟨hFront.stream.quiet.data.eobSeen,
        hFront.stream.quiet.data.inflStat⟩,
        hFront.stream.quiet.drained⟩ rfl hFront.place
  rcases hOffer.call hIn
      (by
        change BadFixed st.s.h.format x
        rw [hFront.format]
        exact hBad) hCall with
    hNext | hNegative
  · left
    have hPlace :
        st'.strm.nextIn = ret.strm.nextIn ∧
          st'.strm.totalIn = ret.strm.totalIn := by
      rw [hState]
      cases internal <;> exact ⟨rfl, rfl⟩
    refine ⟨⟨?_, ?_, ?_, ?_, ?_⟩, hRc.trans hNext.rc, ?_,
      fun hSpace => hPlace.1.trans (hNext.all hSpace)⟩
    · rw [hH, (zedcInflate_format hCall).1]
      exact hFront.format
    · rw [hH]
      exact hNext.next
    · rw [hPlace.2, hH]
    · -- the call has written no output
      have hSame := hNext.nextOut
      rw [hState]
      cases internal with
      | true =>
          simp [hInflateFill, hInflateTake, Obuf.waiting,
            newInflOutput, hSame]
      | false => exact hFront.waiting
    · rw [hRc, hNext.rc]
      decide
    · rw [hState]
      cases internal with
      | true => rfl
      | false => exact hNext.availOut
  · exact Or.inr ⟨ret, hCall, hRc, hNegative⟩

/- The search for the end is for raw streams only. -/
theorem AtFront.checkEnd
    (hFront : AtFront format x st)
    (hFormat : format ≠ .defl)
    (hCheck : hInflateCheckEnd disabled st = some st') :
    st' = st := by
  have hHome :
      checkStreamEnd disabled st.s.h st.strm =
        some (.ok, st.s.h, st.strm) := by
    unfold checkStreamEnd
    rw [if_pos (show st.s.h.format ≠ .defl by
      rw [hFront.format]
      exact hFormat), ite_self]
  unfold hInflateCheckEnd at hCheck
  rw [hHome] at hCheck
  split at hCheck <;> cases hCheck <;> rfl

/-
  With all input taken, or without output space, a round ends
  the call, and nothing has moved.
-/
theorem AtFront.result
    {result : Sum (Rc × HInflate) HInflate}
    (hFront : AtFront format x st)
    (hReady : RoundReady st)
    (hFormat : format ≠ .defl)
    (hOk : st.s.rc = .ok)
    (hTaken : st.strm.availOut ≠ 0 → st.strm.nextIn = [])
    (hResult :
      hInflateResult disabled st = some result) :
    ∃ ret,
      result = .inl ret ∧ AtFront format x ret.2 ∧
        ret.2.strm.nextIn = st.strm.nextIn := by
  cases hInflateResult_outcome hReady.atEnd hResult with
  | error hFlushed hError =>
      have hRc := (hFront.flushed hFlushed).2.rc
      rw [hRc, hOk] at hError
      exact absurd hError (by decide)
  | checked hFlushed _ hCheck =>
      rcases hFront.flushed hFlushed with ⟨hFront₁, hSame⟩
      have hHome := hFront₁.checkEnd hFormat hCheck
      subst hHome
      unfold hInflateRoundEnd
      rw [if_neg fun hEnd => hFront₁.running hEnd.1]
      split
      · exact ⟨_, rfl, hFront₁, hSame.nextIn⟩
      · rename_i hSpace
        rw [hSame.availOut] at hSpace
        split
        · exact ⟨_, rfl, hFront₁, hSame.nextIn⟩
        · rw [if_pos (hSame.nextIn.trans (hTaken hSpace))]
          exact ⟨_, rfl, hFront₁, hSame.nextIn⟩

/-
  Over a bad fixed part a round ends the call: with an error,
  or, where there is output space, with all input taken.
-/
theorem AtFront.round
    {result : Sum (Rc × HInflate) HInflate}
    (hFront : AtFront format x st)
    (hReady : RoundReady st)
    (hBuffered : st.s.obuf.total ≠ 0)
    (hIn : st.strm.nextIn <+: x.drop st.strm.totalIn)
    (hFormat : format ≠ .defl)
    (hBad : BadFixed format x)
    (hReported :
      ∀ st₁ ret,
        hInflateStart flush st = .inr st₁ →
          zedcInflate flush env (hInflateOffer internal st₁) =
            some ret →
          ret.rc.IsNegative →
            ∃ rc st',
              hInflateRound disabled internal flush env st =
                  some (.inl (rc, st')) ∧ rc.IsNegative)
    (hRound :
      hInflateRound disabled internal flush env st =
        some result) :
    ∃ ret,
      result = .inl ret ∧
        (ret.1.IsNegative ∨
          AtFront format x ret.2 ∧
            (st.strm.availOut ≠ 0 →
              ret.2.strm.nextIn = [])) := by
  have hStart := hInflateStart_outcome flush hReady.obuf
    hReady.atEnd
  have hWhole := hRound
  unfold hInflateRound at hRound
  generalize hInflateStart flush st = start
    at hStart hRound hReported
  cases hStart with
  | drain hFlushed hEnd _ =>
      rcases hFront.flushed hFlushed with ⟨hFront₁, -⟩
      exact absurd hEnd hFront₁.running
  | full hFlushed hFull =>
      cases hRound
      rcases hFront.flushed hFlushed with ⟨hFront₁, hSame⟩
      rw [hSame.availOut] at hFull
      exact ⟨_, rfl, Or.inr
        ⟨hFront₁, fun hSpace => absurd hFull hSpace⟩⟩
  | noInput hFlushed _ _ _ hWaits =>
      cases hRound
      rcases hFront.flushed hFlushed with ⟨hFront₁, -⟩
      exact ⟨_, rfl, Or.inr ⟨hFront₁, fun _ => hWaits.1⟩⟩
  | @send st₁ k hFlushed _ _ _ _ =>
      rcases hFront.flushed hFlushed with ⟨hFront₁, hSame⟩
      have hReady₁ := hFlushed.ready hReady
      have hTotal : st₁.s.obuf.total = st.s.obuf.total := by
        rw [hFlushed.strm]
        rfl
      simp only at hRound
      cases hSent : hInflateSent internal flush env st₁ with
      | none =>
          rw [hSent] at hRound
          cases hRound
      | some st₂ =>
          rw [hSent] at hRound
          rcases hFront₁.sent
              (by rw [hSame.nextIn, hSame.totalIn]; exact hIn)
              hBad hSent with
            ⟨hFront₂, hOk, hOut, hAll⟩ |
              ⟨ret, hCall, -, hNegative⟩
          swap
          · rcases hReported st₁ ret rfl hCall hNegative with
              ⟨rc, st', hIs, hRc⟩
            rw [hWhole] at hIs
            cases hIs
            exact ⟨_, rfl, Or.inl hRc⟩
          have hReady₂ : RoundReady st₂ :=
            (hInflateSent_kept hReady₁ hSent).2.1
          have hTaken :
              st.strm.availOut ≠ 0 →
                st₂.strm.nextIn = [] := by
            intro hSpace
            apply hAll
            unfold hInflateOffer
            cases internal with
            | true =>
                rw [← hTotal] at hBuffered
                exact hBuffered
            | false =>
                rw [← hSame.availOut] at hSpace
                exact hSpace
          have hDone :
              st₂.strm.availOut ≠ 0 → st₂.strm.nextIn = [] := by
            rw [hOut, hSame.availOut]
            exact hTaken
          rcases hFront₂.result hReady₂ hFormat hOk hDone
              hRound with ⟨ret, hIs, hFront₃, hNext⟩
          refine ⟨ret, hIs, Or.inr ⟨hFront₃, ?_⟩⟩
          rw [hNext]
          exact hTaken

/- So does a call whose errors are all handed on. -/
theorem AtFront.call
    {fuel : Nat}
    {env : Nat → InflateEnv}
    {ret : Rc × HInflate}
    (hFront : AtFront format x st)
    (hReady : RoundReady st)
    (hIn : st.strm.nextIn <+: x.drop st.strm.totalIn)
    (hFormat : format ≠ .defl)
    (hBad : BadFixed format x)
    (hReported : ErrorsReported disabled flush env st)
    (hCall : hInflate disabled fuel flush env st = some ret) :
    ret.1.IsNegative ∨
      AtFront format x ret.2 ∧
        (st.strm.availOut ≠ 0 → ret.2.strm.nextIn = []) := by
  unfold hInflate at hCall
  split at hCall
  · rename_i hDirect
    rcases hInflateDirect_ends hCall with
      ⟨st₁, dataType80, hSent, hRc, hState⟩
    rcases hFront.sent hIn hBad hSent with
      ⟨hFront₁, -, -, hAll⟩ | ⟨sent, -, hIs, hNegative⟩
    · right
      rw [hState]
      exact ⟨⟨hFront₁.format, hFront₁.stream, hFront₁.place,
        hFront₁.waiting, hFront₁.running⟩, hAll⟩
    · rw [hRc, hIs]
      exact Or.inl hNegative
  · rename_i hBuffered
    split at hCall
    · rename_i hGiven
      exact absurd hGiven.2.2 hFront.running
    · rename_i hMore
      cases fuel with
      | zero => cases hCall
      | succ fuel =>
          unfold hInflateLoop at hCall
          cases hRound : hInflateRound disabled
              (useInternalBuffer st) flush (env 0) st with
          | none =>
              rw [hRound] at hCall
              cases hCall
          | some result =>
              rcases hFront.round hReady hBuffered hIn hFormat
                  hBad (fun st₁ ret hStart hSent hNegative =>
                    hReported ret _
                      (.loop hBuffered hMore .start hStart
                        hSent) hNegative) hRound with
                ⟨ret', hEnd, hRet⟩
              subst hEnd
              rw [hRound] at hCall
              cases hCall
              exact hRet

end Rounds

------------------------------------------------------------
-- Runs
------------------------------------------------------------

/- A stream that was just set up, or reset. -/
inductive NewStream
    (disabled : Bool) (cfg : InflateConfig) :
    HInflate → Prop
  | init
      {windowBits : Int} {z : ZStream} {st : HInflate} :
      hInflateInit2 cfg windowBits z = some st →
      NewStream disabled cfg st
  | reset
      {windowBits : Int} {st : HInflate} :
      Reachable disabled cfg st →
      NewStream disabled cfg
        (hInflateReset2 windowBits st).2

/- A call on an inflate stream with what it returned. -/
structure HInflateLabel where
  op : HInflateOp
  rc : Rc

/- A call of `h_inflate` has returned an error. -/
def HInflateLabel.Fails (l : HInflateLabel) : Prop :=
  (∃ call, l.op = .inflate call) ∧ l.rc.IsNegative

/-
  A call before the stream is set up anew. `h_inflate` is
  offered the next bytes of `x`, and it is not called where an
  error of its first round is passed over.
-/
def streamStep
    (disabled : Bool)
    (x : List UInt8)
    (st : HInflate)
    (l : HInflateLabel)
    (st' : HInflate) : Prop :=
  (∃ fuel, l.op.run disabled fuel st = some (l.rc, st')) ∧
    match l.op with
    | .inflate call =>
        call.nextIn <+: x.drop st.strm.totalIn ∧
          ¬ (CallsFirst call.flush (call.offer st) ∧
            Swallowed (call.offer st))
    | .reset => False
    | .reset2 _ => False
    | .setDictionary _ => True
    | .getHeader _ => True

section Runs

variable {disabled : Bool} {cfg : InflateConfig}
variable {format : Format} {x : List UInt8}
variable {st₀ st st' : HInflate} {l : HInflateLabel}

/- A call reaches the next state. -/
theorem reachable_step
    {fuel : Nat} {op : HInflateOp} {rc : Rc}
    (hReach : Reachable disabled cfg st)
    (hRun : op.run disabled fuel st = some (rc, st')) :
    Reachable disabled cfg st' := by
  rcases hReach with ⟨windowBits, z, st₀, trace, hInit, hCalls⟩
  exact ⟨windowBits, z, st₀, trace ++ [op], hInit,
    hCalls.next ⟨fuel, rc, hRun⟩⟩

theorem NewStream.reachable
    (hNew : NewStream disabled cfg st) :
    Reachable disabled cfg st := by
  cases hNew with
  | init hInit => exact Reachable.init hInit
  | @reset windowBits st hReach =>
      have hRun :
          (HInflateOp.reset2 windowBits).run disabled 0 st =
            some (hInflateReset2 windowBits st) := rfl
      exact reachable_step hReach hRun

/- A dictionary is no matter of the header. -/
theorem AtFront.setDictionary
    (dictionary : List UInt8)
    (hFront : AtFront format x st) :
    AtFront format x
      (hInflateSetDictionary dictionary st).2 := by
  have hStream := hFront.stream
  have hKept :
      Collecting x
          (zedcInflateSetDictionary dictionary
            st.s.h).2 ∧
        (zedcInflateSetDictionary dictionary
            st.s.h).2.format = st.s.h.format ∧
        (zedcInflateSetDictionary dictionary
            st.s.h).2.totalIn = st.s.h.totalIn := by
    unfold zedcInflateSetDictionary
    split
    · exact ⟨hStream, rfl, rfl⟩
    · split
      · exact ⟨hStream, rfl, rfl⟩
      · exact ⟨hStream.congr rfl rfl
          ⟨⟨hStream.quiet.data.eobSeen,
            hStream.quiet.data.inflStat⟩,
            hStream.quiet.drained⟩ rfl rfl, rfl, rfl⟩
  rcases hKept with ⟨hNext, hFormat, hTotal⟩
  exact ⟨hFormat.trans hFront.format, hNext,
    hFront.place.trans hTotal.symm, hFront.waiting,
    hFront.running⟩

/- Nor is the structure that its fields go to. -/
theorem AtFront.getHeader
    (head : GzedcHeader)
    (hFront : AtFront format x st) :
    AtFront format x (hInflateGetHeader head st).2 := by
  have hStream := hFront.stream
  refine ⟨hFront.format, ⟨?_, ?_, hStream.scratch,
    hStream.unprepared, hStream.place⟩, hFront.place,
    hFront.waiting, hFront.running⟩
  · exact ⟨hStream.part.short, hStream.part.state,
      hStream.part.bytes⟩
  · exact ⟨⟨hStream.quiet.data.eobSeen,
      hStream.quiet.data.inflStat⟩, hStream.quiet.drained⟩

/-
  A step that does not fail stays in front of a header whose
  fixed part is bad.
-/
theorem AtFront.step
    (hFront : AtFront format x st)
    (hReach : Reachable disabled cfg st)
    (hFormat : format ≠ .defl)
    (hBad : BadFixed format x)
    (hStep : streamStep disabled x st l st')
    (hFine : ¬ l.Fails) :
    AtFront format x st' ∧
      ∀ call, l.op = .inflate call →
        call.availOut ≠ 0 → st'.strm.nextIn = [] := by
  rcases l with ⟨op, rc⟩
  rcases hStep with ⟨⟨fuel, hRun⟩, hOn⟩
  cases op with
  | inflate call =>
      have hOffered : AtFront format x (call.offer st) :=
        ⟨hFront.format, hFront.stream, hFront.place,
          hFront.waiting, hFront.running⟩
      have hReady : RoundReady (call.offer st) :=
        ⟨(obufOk_of_reachable hReach :), atEnd_offer _ _ _⟩
      have hReported :=
        (errorsReported_call_iff call hReach).mpr hOn.2
      rcases hOffered.call hReady hOn.1 hFormat hBad
          hReported hRun with
        hNegative | ⟨hNext, hAll⟩
      · exact absurd ⟨⟨call, rfl⟩, hNegative⟩ hFine
      · refine ⟨hNext, fun call' hIs hSpace => ?_⟩
        cases hIs
        exact hAll hSpace
  | reset => exact hOn.elim
  | reset2 _ => exact hOn.elim
  | setDictionary dictionary =>
      cases hRun
      exact ⟨hFront.setDictionary dictionary,
        fun call hIs => by cases hIs⟩
  | getHeader head =>
      cases hRun
      exact ⟨hFront.getHeader head,
        fun call hIs => by cases hIs⟩

end Runs

------------------------------------------------------------
-- Streams of GZIP
------------------------------------------------------------

end Session
