import GenWqe.Hardware.Bookkeeping
import GenWqe.Inflate.Progress
import GenWqe.Lib.Loops

/-
  Whether the loop of `h_inflate` ends.

  Key definitions include:
    * `hInflateRounds`, `HInflateEnds`
    * `Stuck`

  Main results:
    * `hInflateLoop_iff`
    * `hInflateRound_progress`
    * `hInflate_ends_iff`
-/

------------------------------------------------------------
-- The Loop
------------------------------------------------------------

namespace Hardware

open Zedc

/- The rounds of a call by their numbers. -/
def hInflateRounds
    (disabled internal : Bool)
    (flush : Flush)
    (env : Nat → InflateEnv)
    (n : Nat)
    (st : HInflate) :
    Option (Sum (Rc × HInflate) HInflate) :=
  hInflateRound disabled internal flush (env n) st

/- A loop that ends returns within some number of rounds. -/
theorem hInflateLoop_iff
    {disabled internal : Bool}
    {flush : Flush}
    {env : Nat → InflateEnv}
    {st : HInflate}
    {ret : Rc × HInflate} :
    (∃ fuel,
      hInflateLoop disabled internal flush fuel env st =
        some ret) ↔
      LoopEnds (hInflateRounds disabled internal flush env)
        0 st (some ret) := by
  have hFrom :
      ∀ n (st : HInflate),
        (∃ fuel,
          hInflateLoop disabled internal flush fuel
              (fun i => env (i + n)) st = some ret) ↔
          LoopEnds
            (hInflateRounds disabled internal flush env)
            n st (some ret) := by
    intro n st
    constructor
    · rintro ⟨fuel, hLoop⟩
      induction fuel generalizing n st with
      | zero => cases hLoop
      | succ fuel ih =>
          unfold hInflateLoop at hLoop
          simp only [Nat.zero_add] at hLoop
          cases hRound : hInflateRound disabled internal flush
              (env n) st with
          | none =>
              rw [hRound] at hLoop
              cases hLoop
          | some result =>
              rw [hRound] at hLoop
              cases result with
              | inl ret' =>
                  cases hLoop
                  exact .returns hRound
              | inr st' =>
                  apply LoopEnds.goesOn hRound
                  apply ih
                  simp only [Nat.add_right_comm _ 1 n,
                    Nat.add_assoc] at hLoop ⊢
                  exact hLoop
    · intro hEnds
      generalize hOutcome : some ret = outcome at hEnds
      induction hEnds with
      | returns hRound =>
          cases hOutcome
          refine ⟨1, ?_⟩
          unfold hInflateLoop
          unfold hInflateRounds at hRound
          simp only [Nat.zero_add]
          rw [hRound]
      | faults _ => cases hOutcome
      | goesOn hRound _ ih =>
          rcases ih hOutcome with ⟨fuel, hLoop⟩
          refine ⟨fuel + 1, ?_⟩
          unfold hInflateLoop
          unfold hInflateRounds at hRound
          simp only [Nat.zero_add]
          rw [hRound]
          simp only [Nat.add_right_comm _ 1 _,
            Nat.add_assoc] at hLoop ⊢
          exact hLoop
  exact hFrom 0 st

/- The stream has ended, and no output waits anywhere. -/
def AllGiven (st : HInflate) : Prop :=
  st.s.obuf.bytes = 0 ∧
    zedcInflatePendingOutput st.s.h = 0 ∧
    st.s.rc = .streamEnd

/-
  A call of `h_inflate` ends with a result, or with none where
  it accesses something outside a buffer.
-/
inductive HInflateEnds
    (disabled : Bool)
    (flush : Flush)
    (env : Nat → InflateEnv)
    (st : HInflate) : Option (Rc × HInflate) → Prop
  | direct
      (hDirect : st.s.obuf.total = 0) :
      HInflateEnds disabled flush env st
        (hInflateDirect flush (env 0) st)
  | ended
      (hBuffered : st.s.obuf.total ≠ 0)
      (hGiven : AllGiven st) :
      HInflateEnds disabled flush env st
        (some (.streamEnd, st))
  | loop
      {outcome : Option (Rc × HInflate)}
      (hBuffered : st.s.obuf.total ≠ 0)
      (hMore : ¬AllGiven st)
      (hLoop :
        LoopEnds
          (hInflateRounds disabled (useInternalBuffer st)
            flush env)
          0 st outcome) :
      HInflateEnds disabled flush env st outcome

section Calls

variable {disabled : Bool} {flush : Flush}
variable {env : Nat → InflateEnv} {st : HInflate}

theorem hInflate_given
    (fuel : Nat)
    (hBuffered : st.s.obuf.total ≠ 0)
    (hGiven : AllGiven st) :
    hInflate disabled fuel flush env st =
      some (.streamEnd, st) := by
  unfold hInflate
  rw [if_neg hBuffered]
  exact if_pos hGiven

theorem hInflate_rounds
    (fuel : Nat)
    (hBuffered : st.s.obuf.total ≠ 0)
    (hMore : ¬AllGiven st) :
    hInflate disabled fuel flush env st =
      hInflateLoop disabled (useInternalBuffer st) flush fuel
        env st := by
  unfold hInflate
  rw [if_neg hBuffered]
  exact if_neg hMore

/- What ends with a result is what returns. -/
theorem hInflate_iff
    {ret : Rc × HInflate} :
    (∃ fuel, hInflate disabled fuel flush env st = some ret) ↔
      HInflateEnds disabled flush env st (some ret) := by
  constructor
  · rintro ⟨fuel, hCall⟩
    by_cases hDirect : st.s.obuf.total = 0
    · unfold hInflate at hCall
      rw [if_pos hDirect] at hCall
      rw [← hCall]
      exact .direct hDirect
    · by_cases hGiven : AllGiven st
      · rw [hInflate_given fuel hDirect hGiven] at hCall
        cases hCall
        exact .ended hDirect hGiven
      · rw [hInflate_rounds fuel hDirect hGiven] at hCall
        exact .loop hDirect hGiven
          (hInflateLoop_iff.mp ⟨fuel, hCall⟩)
  · intro hEnds
    generalize hOutcome : some ret = outcome at hEnds
    cases hEnds with
    | direct hDirect =>
        refine ⟨0, ?_⟩
        unfold hInflate
        rw [if_pos hDirect]
    | ended hBuffered hGiven =>
        exact ⟨0, hInflate_given 0 hBuffered hGiven⟩
    | loop hBuffered hMore hLoop =>
        rw [← hOutcome] at hLoop ⊢
        rcases hInflateLoop_iff.mpr hLoop with ⟨fuel, hCall⟩
        exact ⟨fuel,
          (hInflate_rounds fuel hBuffered hMore).trans hCall⟩

end Calls

------------------------------------------------------------
-- Rounds That Go On
------------------------------------------------------------

/- What a round that is not the last has done. -/
structure RoundOn
    (internal : Bool)
    (flush : Flush)
    (env : InflateEnv)
    (st st' : HInflate) : Prop where
  call :
    ∃ st₁ k ret,
      FlushedObuf st st₁ k ∧
        zedcInflate flush env (hInflateOffer internal st₁) =
          some ret ∧
        GoesOn ret ∧
        st'.s.h = ret.strm ∧
        st'.strm.nextIn = ret.strm.nextIn ∧
        st'.strm.availOut =
          (if internal then
            st₁.strm.availOut -
              (st₁.s.obuf.total - ret.strm.availOut)
          else ret.strm.availOut)
  running : st.s.rc ≠ .streamEnd
  space : st'.strm.availOut ≠ 0
  total : st'.s.obuf.total = st.s.obuf.total
  ready : RoundReady st'

theorem hInflateRoundEnd_on
    {st st' : HInflate}
    (hAgain : hInflateRoundEnd st = .inr st') :
    st' = st ∧ st.strm.dataType80 = false := by
  unfold hInflateRoundEnd at hAgain
  split at hAgain
  · cases hAgain
  · split at hAgain
    · cases hAgain
    · split at hAgain
      · cases hAgain
      · rename_i hBlock
        split at hAgain
        · cases hAgain
        · cases hAgain
          exact ⟨rfl, Bool.eq_false_iff.mpr hBlock⟩

/- The part of a round behind the call. -/
theorem hInflateResult_on
    {disabled : Bool}
    {st st' : HInflate}
    (hReady : RoundReady st)
    (hPending :
      st.s.rc = .streamEnd →
        st.s.h.dict.obytesInDict = 0)
    (hResult : hInflateResult disabled st = some (.inr st')) :
    (∃ k, FlushedObuf st st' k) ∧ ¬Reported st'.s.rc ∧
      st'.s.rc ≠ .streamEnd ∧ st'.strm.availOut ≠ 0 ∧
      st'.strm.nextIn ≠ [] ∧ st'.strm.dataType80 = false := by
  generalize hSome : Sum.inr st' = result at hResult
  cases hInflateResult_outcome hReady.atEnd hResult with
  | error _ _ => cases hSome
  | @checked st₁ st₂ k hFlushed hGood hCheck =>
      have hAgain := hSome.symm
      rcases hInflateRoundEnd_on hAgain with ⟨rfl, hBlock⟩
      have hReady₁ := hFlushed.ready hReady
      rcases hInflateCheckEnd_kept hReady₁ hCheck with
        ⟨-, hReady₂, -⟩
      have hSame := hInflateCheckEnd_space hCheck
      have hOld :
          st₁.s.rc = st.s.rc ∧ st₁.s.h = st.s.h := by
        rw [hFlushed.strm]
        exact ⟨rfl, rfl⟩
      have hOn := hInflateRoundEnd_again hReady₂.obuf
        (by
          intro hSpace
          have hSame := hSame hSpace
          subst hSame
          exact hFlushed.drained hSpace)
        (by
          intro hEnd hSpace
          have hSame := hSame hSpace
          subst hSame
          rw [hOld.2]
          exact hPending (hOld.1 ▸ hEnd))
        hAgain
      have hSame := hSame hOn.2.1
      subst hSame
      exact ⟨⟨k, hFlushed⟩, hGood, hOn.1, hOn.2.1, hOn.2.2,
        hBlock⟩

theorem hInflateRound_on
    {disabled internal : Bool}
    {flush : Flush}
    {env : InflateEnv}
    {st st' : HInflate}
    (hReady : RoundReady st)
    (hRound :
      hInflateRound disabled internal flush env st =
        some (.inr st')) :
    RoundOn internal flush env st st' := by
  have hStart := hInflateStart_outcome flush hReady.obuf
    hReady.atEnd
  unfold hInflateRound at hRound
  generalize hInflateStart flush st = start
    at hStart hRound
  cases hStart with
  | drain _ _ _ => cases hRound
  | full _ _ => cases hRound
  | noInput _ _ _ _ _ => cases hRound
  | @send st₁ k hFlushed hRunning hNone _ _ =>
      have hRunning : st.s.rc ≠ .streamEnd := by
        rw [hFlushed.strm] at hRunning
        exact hRunning
      simp only at hRound
      cases hSent : hInflateSent internal flush env st₁ with
      | none =>
          rw [hSent] at hRound
          cases hRound
      | some st₂ =>
          rw [hSent] at hRound
          rcases hInflateSent_kept (hFlushed.ready hReady)
            hSent with ⟨_, hReady₂, hTotal⟩
          rcases hInflateSent_some hSent with
            ⟨ret, hCall, _, hH, hRc, hState⟩
          rcases hInflateResult_on hReady₂
              (by
                intro hEnd
                rw [hH]
                exact zedcInflate_streamEnd hCall
                  (hRc.symm.trans hEnd))
              hRound with
            ⟨⟨k', hBehind⟩, hGood, hOn, hSpace, hInput,
              hBlock⟩
          have hWaiting := hBehind.waiting
          have hAll := hBehind.all
          have hSame :
              st'.s.h = ret.strm ∧ st'.s.rc = ret.rc ∧
              st'.s.obuf.total = st₂.s.obuf.total ∧
              st'.strm.nextIn = st₂.strm.nextIn ∧
              st'.strm.dataType80 = st₂.strm.dataType80 ∧
              st'.strm.availOut =
                st₂.strm.availOut -
                  (st₂.s.obuf.waiting.take k').length := by
            rw [hBehind.strm]
            exact ⟨hH, hRc, rfl, rfl, rfl, rfl⟩
          rcases hSame with
            ⟨hH', hRc', hTotal', hIn', hBlock', hOut'⟩
          have hTaken :
              st₂.strm.nextIn = ret.strm.nextIn ∧
              st₂.strm.dataType80 = ret.strm.dataType80 := by
            rw [hState]
            cases internal <;> exact ⟨rfl, rfl⟩
          refine ⟨⟨st₁, k, ret, hFlushed, hCall, ?_, hH',
            hIn'.trans hTaken.1, ?_⟩, hRunning, hSpace, ?_,
            hBehind.ready hReady₂⟩
          · rw [hRc'] at hGood hOn
            rw [hBlock', hTaken.2] at hBlock
            rw [hIn', hTaken.1] at hInput
            exact
              { needDict := fun h => hGood (Or.inl h)
                streamError := fun h =>
                  hGood (Or.inr (Or.inl h))
                dataError := fun h =>
                  hGood (Or.inr (Or.inr (Or.inl h)))
                streamEnd := hOn
                block := hBlock
                input := hInput }
          · rw [List.length_take, Nat.min_eq_left hWaiting]
              at hOut'
            cases internal with
            | true =>
                have hBuffer := hReady₂.obuf.avail
                rw [← Obuf.length_waiting] at hBuffer
                have hStored :
                    st₂.strm.availOut = st₁.strm.availOut ∧
                    st₂.s.obuf.avail = ret.strm.availOut := by
                  rw [hState]
                  exact ⟨rfl, rfl⟩
                rw [if_pos rfl]
                omega
            | false =>
                have hStored :
                    st₂.strm.availOut = ret.strm.availOut ∧
                    st₂.s.obuf = st₁.s.obuf := by
                  rw [hState]
                  exact ⟨rfl, rfl⟩
                rw [hStored.2, hNone] at hWaiting
                rw [if_neg Bool.false_ne_true]
                simp only [List.length_nil] at hWaiting
                omega
          · rw [hTotal', hTotal, hFlushed.strm]
            rfl

------------------------------------------------------------
-- Rounds Get On
------------------------------------------------------------

/-
  What is still to be done: every byte of input and of output
  space counts twice, and once that no output waits at the end
  of the dictionary.
-/
def roundsLeft (st : HInflate) : Nat :=
  2 * (st.strm.nextIn.length + st.strm.availOut) +
    (if st.s.h.dict.obytesInDict = 0 then 1 else 0)

/- What holds of a state in front of a round. -/
structure Winding (st : HInflate) : Prop where
  ready : RoundReady st
  buffered : st.s.obuf.total ≠ 0
  inside : TrailerInside st.s.h
  small : st.strm.nextIn.length ≤ zedcInflAvailInMax

theorem hInflateRound_progress
    {disabled internal : Bool}
    {flush : Flush}
    {env : InflateEnv}
    {st st' : HInflate}
    (hWinding : Winding st)
    (hRound :
      hInflateRound disabled internal flush env st =
        some (.inr st')) :
    Winding st' ∧ roundsLeft st' < roundsLeft st := by
  have hOn := hInflateRound_on hWinding.ready hRound
  rcases hOn.call with
    ⟨st₁, k, ret, hFlushed, hCall, hGoesOn, hH, hIn, hOut⟩
  have hOld :
      st₁.s.h = st.s.h ∧ st₁.strm.nextIn = st.strm.nextIn ∧
      st₁.s.obuf.total = st.s.obuf.total ∧
      st₁.strm.availOut ≤ st.strm.availOut := by
    rw [hFlushed.strm]
    exact ⟨rfl, rfl, rfl, Nat.sub_le _ _⟩
  rcases hOld with ⟨hOldH, hOldIn, hOldTotal, hOldOut⟩
  have hShrinks := (zedcInflate_moves hCall).shrinks
  simp only [InflStream.account, hInflateOffer, hOldIn,
    hOldTotal] at hShrinks
  have hSpace := hOn.space
  have hLess :
      st'.strm.availOut ≤ st₁.strm.availOut ∧
      (ret.strm.availOut <
          (if internal then st.s.obuf.total
          else st₁.strm.availOut) →
        st'.strm.availOut < st₁.strm.availOut) ∧
      (if internal then st.s.obuf.total
        else st₁.strm.availOut) ≠ 0 := by
    have hBuffered := hWinding.buffered
    rw [hOldTotal] at hOut
    cases internal <;>
      simp only [Bool.false_eq_true, if_true, if_false]
        at hOut hShrinks ⊢ <;>
      omega
  rcases hLess with ⟨hLe, hLess, hRoom⟩
  have hInside :
      TrailerInside (hInflateOffer internal st₁) := by
    apply hWinding.inside.congr
    rw [← hOldH]
    rfl
  have hSmall := hWinding.small
  have hProgress := zedcInflate_progress hInside
    (by
      simp only [InflStream.availIn, hInflateOffer, hOldIn]
      exact hSmall)
    (by
      simp only [hInflateOffer, hOldTotal]
      exact hRoom)
    hCall hGoesOn
  simp only [Progress, hInflateOffer, hOldIn, hOldTotal,
    hOldH] at hProgress
  refine ⟨⟨hOn.ready, hOn.total ▸ hWinding.buffered, ?_, ?_⟩,
    ?_⟩
  · rw [hH]
    exact zedcInflate_trailerInside hInside hCall
  · rw [hIn]
    exact hShrinks.1.trans hSmall
  · unfold roundsLeft
    rw [hIn, hH]
    rcases hProgress with hTaken | hGiven | ⟨hNone, hSome⟩
    · split <;> omega
    · have hGiven := hLess hGiven
      split <;> omega
    · rw [if_neg hSome, if_pos hNone]
      omega

------------------------------------------------------------
-- Too Much Input
------------------------------------------------------------

/-
  More input is offered than `zedc_inflate` takes in one call,
  there is space behind the bytes that wait, and nothing else
  ends the call.
-/
structure Stuck (st : HInflate) : Prop where
  buffered : st.s.obuf.total ≠ 0
  running : st.s.rc ≠ .streamEnd
  input : zedcInflAvailInMax < st.strm.nextIn.length
  space : st.s.obuf.bytes < st.strm.availOut
  block : st.s.h.dataType80 = false

/- With too much input no other round goes on. -/
theorem hInflateRound_stuck
    {disabled internal : Bool}
    {flush : Flush}
    {env : InflateEnv}
    {st st' : HInflate}
    (hReady : RoundReady st)
    (hBuffered : st.s.obuf.total ≠ 0)
    (hLarge : zedcInflAvailInMax < st.strm.nextIn.length)
    (hRound :
      hInflateRound disabled internal flush env st =
        some (.inr st')) :
    Stuck st := by
  have hOn := hInflateRound_on hReady hRound
  rcases hOn.call with
    ⟨st₁, k, ret, hFlushed, hCall, hGoesOn, _, _, hOut⟩
  have hOld :
      st₁.s.h = st.s.h ∧ st₁.strm.nextIn = st.strm.nextIn ∧
      st₁.strm.availOut =
        st.strm.availOut -
          (st.s.obuf.waiting.take k).length := by
    rw [hFlushed.strm]
    exact ⟨rfl, rfl, rfl⟩
  rcases hOld with ⟨hOldH, hOldIn, hOldOut⟩
  have hOffered :
      zedcInflAvailInMax <
        (hInflateOffer internal st₁).availIn := by
    simp only [InflStream.availIn, hInflateOffer, hOldIn]
    exact hLarge
  rw [zedcInflate_tooLarge _ _ hOffered] at hCall
  cases hCall
  have hBlock := hGoesOn.block
  simp only [hInflateOffer, hOldH] at hBlock
  refine ⟨hBuffered, hOn.running, hLarge, ?_, hBlock⟩
  have hSpace := hOn.space
  have hWaiting := hFlushed.waiting
  have hAll := hFlushed.all
  rw [List.length_take, Nat.min_eq_left hWaiting] at hOldOut
  rw [hOut] at hSpace
  rw [← Obuf.length_waiting]
  cases internal <;>
    simp only [hInflateOffer, Bool.false_eq_true, if_true,
      if_false] at hSpace <;>
    omega

/- The part before the call, with input and space. -/
theorem hInflateStart_send
    (flush : Flush)
    {st : HInflate}
    (hReady : RoundReady st)
    (hRunning : st.s.rc ≠ .streamEnd)
    (hInput : st.strm.nextIn ≠ [])
    (hSpace : st.s.obuf.bytes < st.strm.availOut) :
    ∃ st₁ k,
      FlushedObuf st st₁ k ∧
        hInflateStart flush st = .inr st₁ ∧
        st₁.s.obuf.waiting = [] ∧
        st₁.strm.availOut ≠ 0 := by
  have hRoom :
      ∀ {st₁ k}, FlushedObuf st st₁ k →
        st₁.strm.availOut ≠ 0 := by
    intro st₁ k hFlushed
    have hWaiting := hFlushed.waiting
    have hAll := hFlushed.all
    have hOut :
        st₁.strm.availOut =
          st.strm.availOut -
            (st.s.obuf.waiting.take k).length := by
      rw [hFlushed.strm]
      rfl
    rw [← Obuf.length_waiting] at hSpace
    rw [List.length_take, Nat.min_eq_left hWaiting] at hOut
    omega
  have hStart := hInflateStart_outcome flush hReady.obuf
    hReady.atEnd
  generalize hInflateStart flush st = start at hStart ⊢
  cases hStart with
  | drain hFlushed hEnd _ =>
      rw [hFlushed.strm] at hEnd
      exact absurd hEnd hRunning
  | full hFlushed hFull =>
      exact absurd hFull (hRoom hFlushed)
  | noInput hFlushed _ _ _ hWaits =>
      have hNone := hWaits.1
      rw [hFlushed.strm] at hNone
      exact absurd hNone hInput
  | send hFlushed _ hNone _ _ =>
      exact ⟨_, _, hFlushed, rfl, hNone, hRoom hFlushed⟩

/- What is left of a round behind a call that did nothing. -/
theorem hInflateResult_again
    (disabled : Bool)
    {st : HInflate}
    (hReady : RoundReady st)
    (hRc : st.s.rc = .memError)
    (hEmpty : st.s.obuf.waiting = [])
    (hSpace : st.strm.availOut ≠ 0)
    (hBlock : st.strm.dataType80 = false)
    (hInput : st.strm.nextIn ≠ []) :
    ∃ st',
      FlushedObuf st st' 0 ∧
        hInflateResult disabled st = some (.inr st') := by
  rcases hInflateFlushObuf_spec hReady.atEnd with
    ⟨k, hFlushed⟩
  have hWaiting := hFlushed.waiting
  rw [hEmpty] at hWaiting
  have hZero := Nat.le_zero.mp hWaiting
  subst hZero
  refine ⟨_, hFlushed, ?_⟩
  unfold hInflateResult
  generalize hInflateFlushObuf st = st' at hFlushed ⊢
  have hSame :
      st'.s.rc = .memError ∧ st'.strm.availOut ≠ 0 ∧
      st'.strm.dataType80 = false ∧
      st'.strm.nextIn ≠ [] := by
    rw [hFlushed.strm]
    exact ⟨hRc, hSpace, hBlock, hInput⟩
  rcases hSame with ⟨hRc', hSpace', hBlock', hInput'⟩
  simp only
  rw [if_neg (by rw [hRc']; decide)]
  unfold hInflateCheckEnd hInflateRoundEnd
  rw [if_neg (fun h => hSpace' h.2)]
  simp only [Option.map_some]
  rw [if_neg (by rw [hRc']; exact nofun), if_neg hSpace',
    if_neg (by rw [hBlock']; decide), if_neg hInput']

/- A call that takes nothing leads to another one. -/
theorem Stuck.round
    {st : HInflate}
    (hStuck : Stuck st)
    (hReady : RoundReady st)
    (disabled internal : Bool)
    (flush : Flush)
    (env : InflateEnv) :
    ∃ st',
      hInflateRound disabled internal flush env st =
          some (.inr st') ∧
        Stuck st' ∧ RoundReady st' := by
  have hLarge := hStuck.input
  have hInput : st.strm.nextIn ≠ [] := by
    intro hNone
    rw [hNone] at hLarge
    exact Nat.not_lt_zero _ hLarge
  rcases hInflateStart_send flush hReady hStuck.running hInput
    hStuck.space with ⟨st₁, k, hFlushed, hStart, hNone, hRoom⟩
  have hReady₁ := hFlushed.ready hReady
  have hOld :
      st₁.s.h = st.s.h ∧ st₁.strm.nextIn = st.strm.nextIn ∧
      st₁.s.obuf.total = st.s.obuf.total := by
    rw [hFlushed.strm]
    exact ⟨rfl, rfl, rfl⟩
  rcases hOld with ⟨hOldH, hOldIn, hOldTotal⟩
  have hCall :
      zedcInflate flush env (hInflateOffer internal st₁) =
        some ⟨.memError, hInflateOffer internal st₁, none⟩ := by
    apply zedcInflate_tooLarge
    simp only [InflStream.availIn, hInflateOffer, hOldIn]
    exact hLarge
  cases hSent : hInflateSent internal flush env st₁ with
  | none =>
      unfold hInflateSent hInflateCall at hSent
      simp only at hSent
      rw [hCall] at hSent
      cases hSent
  | some st₂ =>
      rcases hInflateSent_kept hReady₁ hSent with
        ⟨_, hReady₂, hTotal⟩
      rcases hInflateSent_some hSent with
        ⟨ret, hCall', _, hH, hRc, hState⟩
      rw [hCall] at hCall'
      cases hCall'
      have hSame :
          st₂.s.obuf.waiting = [] ∧
          st₂.strm.availOut = st₁.strm.availOut ∧
          st₂.strm.nextIn = st.strm.nextIn ∧
          st₂.strm.dataType80 = st₁.s.h.dataType80 := by
        rw [hState, ← hOldIn]
        cases internal with
        | true =>
            refine ⟨?_, rfl, rfl, rfl⟩
            simp [hInflateFill, hInflateTake, Obuf.waiting,
              newInflOutput]
        | false => exact ⟨hNone, rfl, rfl, rfl⟩
      rcases hSame with ⟨hEmpty, hOut, hIn, hBlock⟩
      rw [hOldH] at hBlock
      rcases hInflateResult_again disabled hReady₂ hRc hEmpty
          (hOut ▸ hRoom) (hBlock.trans hStuck.block)
          (hIn ▸ hInput) with
        ⟨st', hBehind, hResult⟩
      refine ⟨st', ?_, ?_, hBehind.ready hReady₂⟩
      · unfold hInflateRound
        rw [hStart]
        simp only
        rw [hSent]
        exact hResult
      · have hBehindEmpty : st'.s.obuf.waiting = [] := by
          rw [hBehind.strm]
          simp only [Obuf.waiting_giveOut, hEmpty,
            List.drop_nil]
        have hSame :
            st'.s.obuf.total = st₂.s.obuf.total ∧
            st'.s.rc = st₂.s.rc ∧ st'.s.h = st₂.s.h ∧
            st'.strm.nextIn = st₂.strm.nextIn ∧
            st'.strm.availOut = st₂.strm.availOut := by
          rw [hBehind.strm]
          exact ⟨rfl, rfl, rfl, rfl, rfl⟩
        rcases hSame with
          ⟨hTotal', hRc', hH', hIn', hOut'⟩
        refine ⟨?_, ?_, ?_, ?_, ?_⟩
        · rw [hTotal', hTotal, hOldTotal]
          exact hStuck.buffered
        · rw [hRc', hRc]
          intro hSame
          cases hSame
        · rw [hIn', hIn]
          exact hLarge
        · rw [← Obuf.length_waiting, hBehindEmpty, hOut',
            hOut]
          exact Nat.pos_of_ne_zero hRoom
        · rw [hH', hH]
          exact (congrArg InflStream.dataType80 hOldH).trans
            hStuck.block

/- Rounds on a stuck state follow each other for ever. -/
theorem Stuck.not_ends
    {disabled internal : Bool}
    {flush : Flush}
    {env : Nat → InflateEnv}
    {st : HInflate}
    {outcome : Option (Rc × HInflate)}
    (hStuck : Stuck st)
    (hReady : RoundReady st) :
    ¬LoopEnds (hInflateRounds disabled internal flush env)
      0 st outcome := by
  apply not_loopEnds_of_invariant
    (fun st => Stuck st ∧ RoundReady st)
  · rintro n s ⟨hNow, hOk⟩
    exact hNow.round hOk disabled internal flush (env n)
  · exact ⟨hStuck, hReady⟩

------------------------------------------------------------
-- Every Call
------------------------------------------------------------

/- The trailer is in order in every reachable state. -/
theorem trailerInside_of_reachable
    {disabled : Bool}
    {cfg : InflateConfig}
    {st : HInflate}
    (hReach : Reachable disabled cfg st) :
    TrailerInside st.s.h := by
  have hRule : StreamRule TrailerInside := by
    refine ⟨?_, ?_, ?_, ?_⟩
    · intro h _ _ _ _ hInside
      exact hInside
    · intro flush env h ret hInside hCall
      exact zedcInflate_trailerInside hInside hCall
    · intro len h bs h' hInside hRead
      unfold zedcReadPendingOutput at hRead
      split at hRead
      · cases hRead
        exact hInside
      · split at hRead
        · cases hRead
        · cases hRead
          exact hInside
    · intro h hInside
      exact hInside
  refine hRule.reachable ?_ ?_ ?_ hReach
  · intro h format
    exact Nat.zero_le _
  · intro dictionary h hInside
    unfold zedcInflateSetDictionary
    split
    · exact hInside
    · split
      · exact hInside
      · exact hInside
  · intro head h hInside
    exact hInside

/- Every loop on a state that is not stuck ends. -/
theorem hInflateLoop_ends
    {disabled internal : Bool}
    {flush : Flush}
    {env : Nat → InflateEnv}
    {st : HInflate}
    (hReady : RoundReady st)
    (hInside : TrailerInside st.s.h)
    (hBuffered : st.s.obuf.total ≠ 0)
    (hFree : ¬Stuck st) :
    ∃ outcome,
      LoopEnds (hInflateRounds disabled internal flush env)
        0 st outcome := by
  by_cases hSmall :
      st.strm.nextIn.length ≤ zedcInflAvailInMax
  · apply loopEnds_of_measure Winding roundsLeft
    · intro n s s' hWinding hRound
      exact Or.inr (hInflateRound_progress hWinding hRound)
    · exact ⟨hReady, hBuffered, hInside, hSmall⟩
  · apply loopEnds_of_measure (fun s => s = st) (fun _ => 0)
    · rintro n s s' rfl hRound
      exact absurd
        (hInflateRound_stuck hReady hBuffered
          (Nat.not_le.mp hSmall) hRound)
        hFree
    · rfl

/-
  A call of `h_inflate` in any state that calls reach, with
  any input, output space, flush value and answers of the
  card, ends just where it does not get stuck.
-/
theorem hInflate_ends_iff
    {disabled : Bool}
    {cfg : InflateConfig}
    {st : HInflate}
    (call : HInflateCall)
    (hReach : Reachable disabled cfg st) :
    (∃ outcome,
      HInflateEnds disabled call.flush call.env
        (call.offer st) outcome) ↔
      ¬Stuck (call.offer st) := by
  have hReady : RoundReady (call.offer st) :=
    ⟨(obufOk_of_reachable hReach :), atEnd_offer _ _ _⟩
  have hOld := trailerInside_of_reachable hReach
  have hInside : TrailerInside (call.offer st).s.h := hOld
  constructor
  · rintro ⟨outcome, hEnds⟩ hStuck
    cases hEnds with
    | direct hDirect => exact hStuck.buffered hDirect
    | ended _ hGiven => exact hStuck.running hGiven.2.2
    | loop _ _ hLoop => exact hStuck.not_ends hReady hLoop
  · intro hFree
    by_cases hDirect : (call.offer st).s.obuf.total = 0
    · exact ⟨_, .direct hDirect⟩
    · by_cases hGiven : AllGiven (call.offer st)
      · exact ⟨_, .ended hDirect hGiven⟩
      · rcases hInflateLoop_ends hReady hInside hDirect
          hFree with ⟨outcome, hLoop⟩
        exact ⟨outcome, .loop hDirect hGiven hLoop⟩

/- Four gigabytes of input, less a byte, and one of space. -/
def hugeCall : HInflateCall where
  nextIn := List.replicate (2 ^ 32 - 1) 0
  availOut := 1
  flush := .noFlush
  env := fun _ => ⟨fun _ _ => quietResp⟩

/- A raw stream gets stuck on it. -/
theorem stuck_huge : Stuck (hugeCall.offer rawInflate) := by
  refine ⟨by decide, by decide, ?_, by decide, by decide⟩
  change zedcInflAvailInMax <
    (List.replicate (2 ^ 32 - 1) (0 : UInt8)).length
  rw [List.length_replicate]
  decide

theorem hInflate_never_ends :
    Reachable false plainConfig rawInflate ∧
    ¬∃ outcome,
      HInflateEnds false hugeCall.flush hugeCall.env
        (hugeCall.offer rawInflate) outcome := by
  refine ⟨reachable_rawInflate, ?_⟩
  rintro ⟨outcome, hEnds⟩
  cases hEnds with
  | direct hDirect =>
      exact absurd hDirect stuck_huge.buffered
  | ended _ hGiven =>
      exact absurd hGiven.2.2 stuck_huge.running
  | loop _ _ hLoop =>
      apply stuck_huge.not_ends _ hLoop
      exact ⟨(obufOk_initial 1 :), rfl⟩

/- A small call. -/
def smallInflate : HInflateCall where
  nextIn := [0x4a]
  availOut := 1
  flush := .noFlush
  env := fun _ => ⟨fun _ _ => quietResp⟩

theorem hInflate_ends_small :
    ∃ outcome,
      HInflateEnds false smallInflate.flush smallInflate.env
        (smallInflate.offer rawInflate) outcome := by
  have hReach : Reachable false plainConfig rawInflate :=
    reachable_rawInflate
  apply (hInflate_ends_iff smallInflate hReach).mpr
  intro hStuck
  exact absurd hStuck.input (by decide)

end Hardware
