import GenWqe.Capi.Modes

/-
  What a CAPI handle can be used for: the context that an
  execute reaches through it, and what `card_open` says about
  it.

  Key definitions include:
    * `Usable` and `HandlesUsable`
    * `HandleKept`

  Main results:
    * `usable_iff`
    * `handlesUsable_iff`
-/

namespace Capi.Cards

------------------------------------------------------------
-- Usable Handles
------------------------------------------------------------

/- An execute on the handle reaches an AFU that is open. -/
def Usable (s : CapiState) (ttx : Ttx) : Prop :=
  ∃ c,
    (chooseCard s.ctxs ttx).ctx = some c ∧
      (s.ctxs c).afuH.isSome

/-
  No handle comes with an error; one that is returned comes
  with `DDCB_OK`, has a context, and some card let it in. No
  execute uses a null context or an AFU that is not open.
-/
def AnswerRight : Answer → Prop
  | .opened ⟨none, rc⟩ => rc ≠ ddcbOk
  | .opened ⟨some ttx, rc⟩ =>
      rc = ddcbOk ∧ ttx.ctx.isSome ∧
        ∃ c, ttx.attached c = true
  | .executed submission =>
      submission ≠ .nullCtx ∧
        ∀ c, submission ≠ .closedAfu c
  | _ => True

/- All answers were right, and all handles can be used. -/
def HandlesUsable
    (trace : List CapiEvent)
    (s : CapiState) : Prop :=
  (∀ event ∈ trace, AnswerRight event.2) ∧
    ∀ ttx ∈ s.live, Usable s ttx

/- The call would open the AFU of the card. -/
def OpenCall.Opens
    (call : OpenCall)
    (s : CapiState)
    (c : Card) : Prop :=
  (s.ctxs c).clients = 0 ∧ (s.ctxs c).doneTid = false ∧
    (call.attempts c).Opens call.mode

/-
  An open of one card does not take over a thread without an
  AFU. For an open of all cards the last one tried lets the
  handle in, and some AFU is open or is opened.
-/
def HandleKept (s : CapiState) : Call → Prop
  | .open call =>
      (∀ c, cardOfNo call.cardNo = some (some c) →
        call.alloc = true →
          (s.ctxs c).TakesOver call.mode →
            (s.ctxs c).afuH.isSome) ∧
      (cardOfNo call.cardNo = some none →
        call.alloc = true →
          (s.ctxs (lastTried call.start)).Attaches call.mode
              (call.attempts (lastTried call.start)) ∧
            ∃ c, (s.ctxs c).afuH.isSome ∨ call.Opens s c)
  | _ => True

------------------------------------------------------------
-- The Choice of a Card
------------------------------------------------------------

/- The cards from `start` on, with one more in front. -/
theorem tried_first
    (n : Nat)
    (hn : n < numCards)
    (start d : Card) :
    tried start d (n + 1) =
      (decide (d = start) || tried (start + 1) d n) := by
  unfold tried
  revert n
  revert start d
  decide

section Choice

variable {ctxs : Card → CardCtx}

theorem nextOpen_open
    {cardNext c : Card} {n : Nat}
    (hFound : (nextOpen ctxs cardNext n).1 = some c) :
    (ctxs c).afuH.isSome := by
  induction n generalizing cardNext with
  | zero => cases hFound
  | succ n ih =>
      rw [nextOpen] at hFound
      split at hFound
      · rename_i hOpen
        cases hFound
        exact hOpen
      · exact ih hFound

theorem nextOpen_none
    {cardNext : Card} {n : Nat}
    (hn : n ≤ numCards)
    (hNone : (nextOpen ctxs cardNext n).1 = none)
    {d : Card}
    (hTried : tried (cardNext + 1) d n = true) :
    ¬(ctxs d).afuH.isSome := by
  induction n generalizing cardNext with
  | zero => simp [tried] at hTried
  | succ n ih =>
      rw [nextOpen] at hNone
      split at hNone
      · cases hNone
      rename_i hClosed
      rw [tried_first n hn] at hTried
      rcases Bool.or_eq_true_iff.mp hTried with
        hHere | hLater
      · rw [of_decide_eq_true hHere]
        exact hClosed
      · exact ih (by omega) hNone hLater

/-
  Through a handle for all cards an execute finds any AFU
  that is open.
-/
theorem chooseCard_redundant
    {ttx : Ttx}
    (hNo : ttx.cardNo = none)
    {d : Card}
    (hOpen : (ctxs d).afuH.isSome) :
    ∃ c,
      (chooseCard ctxs ttx).ctx = some c ∧
        (ctxs c).afuH.isSome := by
  unfold chooseCard
  simp only [hNo]
  cases hFound :
      (nextOpen ctxs ttx.cardNext numCards).1 with
  | none =>
      exact (nextOpen_none le_rfl hFound
        (tried_all _ d) hOpen).elim
  | some c => exact ⟨c, rfl, nextOpen_open hFound⟩

end Choice

section Usability

variable {s s' : CapiState} {event : CapiEvent}

theorem usable_single
    (hSound : s.Sound)
    {ttx : Ttx} {c : Card}
    (hMem : ttx ∈ s.live)
    (hNo : ttx.cardNo = some c) :
    Usable s ttx ↔ (s.ctxs c).afuH.isSome := by
  have hCtx := (hSound.bound ttx hMem c hNo).1
  unfold Usable
  rw [chooseCard_single hNo, hCtx]
  constructor
  · rintro ⟨d, hd, hOpen⟩
    cases hd
    exact hOpen
  · exact fun hOpen => ⟨c, rfl, hOpen⟩

theorem usable_redundant
    {ttx : Ttx}
    (hNo : ttx.cardNo = none) :
    Usable s ttx ↔ ∃ c, (s.ctxs c).afuH.isSome := by
  constructor
  · rintro ⟨c, -, hOpen⟩
    exact ⟨c, hOpen⟩
  · rintro ⟨c, hOpen⟩
    exact chooseCard_redundant hNo hOpen

/- A usable handle is not sent to a place that is closed. -/
theorem usable_executes
    {ttx : Ttx}
    (hUsable : Usable s ttx) :
    AnswerRight (.executed (ddcbExecute s ttx).1) := by
  rcases hUsable with ⟨c, hCtx, hOpen⟩
  simp only [ddcbExecute, executeMulti, hCtx]
  split
  · exact ⟨fun h => (nomatch h), fun _ h => (nomatch h)⟩
  split
  · rename_i hClosed
    simp [hClosed] at hOpen
  · exact ⟨fun h => (nomatch h), fun _ h => (nomatch h)⟩

end Usability

------------------------------------------------------------
-- AFUs That Are Open
------------------------------------------------------------

section Afus

variable {s s' : CapiState} {event : CapiEvent}

/- An AFU is open behind a call if it was, or was opened. -/
theorem ClientInc.afu_iff
    {ctx ctx' : CardCtx} {mode : UInt32}
    {attempt : OpenAttempt} {rc : Int}
    (hTended : ctx.Tended)
    (hInc : ClientInc ctx mode attempt rc ctx') :
    ctx'.afuH.isSome ↔
      ctx.afuH.isSome ∨
        (ctx.clients = 0 ∧ ctx.doneTid = false ∧
          attempt.Opens mode) := by
  cases hInc with
  | shared hClients _ => simp [hClients]
  | refused hClients _ => simp [hClients]
  | reused _ hTid => simp [hTid]
  | opened hClients hTid hOpens =>
      simp [hClients, hTid, hOpens, CardCtx.fresh]
  | failed _ hTid hOpens _ _ hAfu _ =>
      simp [hAfu, hOpens, (hTended.closed hTid).1]

/- No call closes an AFU. -/
theorem afu_stays_open
    (hSound : s.Sound)
    (hStep : capiStep s event s')
    {c : Card}
    (hOpen : (s.ctxs c).afuH.isSome) :
    (s'.ctxs c).afuH.isSome := by
  cases capiStep_outcome hStep with
  | refused _ _ => exact hOpen
  | @failed call d _ _ _ =>
      by_cases hd : c = d
      · subst hd
        simp only [Function.update_self]
        exact ((hSound.inc call c).afu_iff
          (hSound.tended c)).mpr (Or.inl hOpen)
      · simp only [Function.update_of_ne hd]
        exact hOpen
  | @single call d _ _ _ _ _ _ _ =>
      by_cases hd : c = d
      · subst hd
        simp only [Function.update_self]
        exact ((hSound.inc call c).afu_iff
          (hSound.tended c)).mpr (Or.inl hOpen)
      · simp only [Function.update_of_ne hd]
        exact hOpen
  | @redundant call _ _ _ _ _ _ =>
      exact ((hSound.inc call c).afu_iff
        (hSound.tended c)).mpr (Or.inl hOpen)
  | nothing => exact hOpen
  | closed _ =>
      rw [cardClose_ctxs]
      split
      · exact hOpen
      · exact hOpen
  | executed _ => exact hOpen
  | @chosen d _ _ _ =>
      by_cases hd : c = d
      · subst hd
        simp only [Function.update_self]
        exact hOpen
      · simp only [Function.update_of_ne hd]
        exact hOpen

/- A handle can be used for as long as it stays open. -/
theorem usable_stays
    (hSound : s.Sound)
    (hStep : capiStep s event s')
    {ttx ttx' : Ttx}
    (hMem : ttx ∈ s.live)
    (hMem' : ttx' ∈ s'.live)
    (hNo : ttx'.cardNo = ttx.cardNo)
    (hUsable : Usable s ttx) :
    Usable s' ttx' := by
  have hSound' := capiStep_sound hSound hStep
  cases hCard : ttx.cardNo with
  | some c =>
      have hOpen :=
        (usable_single hSound hMem hCard).mp hUsable
      exact (usable_single hSound' hMem'
        (hNo.trans hCard)).mpr
          (afu_stays_open hSound hStep hOpen)
  | none =>
      rcases (usable_redundant hCard).mp hUsable with
        ⟨c, hOpen⟩
      exact (usable_redundant (hNo.trans hCard)).mpr
        ⟨c, afu_stays_open hSound hStep hOpen⟩

/- An open that succeeds without a takeover opens the AFU. -/
theorem attaches_open
    {ctx : CardCtx} {mode : UInt32}
    {attempt : OpenAttempt}
    (hAttaches : ctx.Attaches mode attempt)
    (hTakes : ¬ctx.TakesOver mode) :
    ctx.clients = 0 ∧ ctx.doneTid = false ∧
      attempt.Opens mode := by
  rcases hAttaches with hShared | ⟨hClients, hTid | hOpens⟩
  · exact (hTakes (Or.inl hShared)).elim
  · exact (hTakes (Or.inr ⟨hClients, hTid⟩)).elim
  · refine ⟨hClients, ?_, hOpens⟩
    cases hTid : ctx.doneTid with
    | false => rfl
    | true => exact (hTakes (Or.inr ⟨hClients, hTid⟩)).elim

end Afus

------------------------------------------------------------
-- Runs
------------------------------------------------------------

section Steps

variable {past : List CapiEvent}
variable {s s' : CapiState} {event : CapiEvent}

/- The answers so far stay right if the next one is. -/
theorem answers_concat
    (hPast : ∀ event ∈ past, AnswerRight event.2)
    (hNext : AnswerRight event.2) :
    ∀ e ∈ past ++ [event], AnswerRight e.2 := by
  intro e hMem
  rcases List.mem_append.mp hMem with hOld | hNew
  · exact hPast e hOld
  · rw [List.mem_singleton.mp hNew]
    exact hNext

/- A call that keeps the handles usable. -/
theorem handlesUsable_step
    (hSound : s.Sound)
    (hUsable : HandlesUsable past s)
    (hStep : capiStep s event s')
    (hKept : HandleKept s event.1) :
    HandlesUsable (past ++ [event]) s' := by
  have hSound' := capiStep_sound hSound hStep
  have hStays : ∀ ttx ∈ s.live, ∀ ttx' ∈ s'.live,
      ttx'.cardNo = ttx.cardNo → Usable s' ttx' :=
    fun ttx hMem ttx' hMem' hNo =>
      usable_stays hSound hStep hMem hMem' hNo
        (hUsable.2 ttx hMem)
  cases capiStep_outcome hStep with
  | refused _ hRc =>
      exact ⟨answers_concat hUsable.1 hRc,
        fun t hMem => hStays t hMem t hMem rfl⟩
  | failed _ _ hRc =>
      exact ⟨answers_concat hUsable.1 hRc,
        fun t hMem => hStays t hMem t hMem rfl⟩
  | @single call c ttx hCard hAlloc hRc hNo hCtx hAttached =>
      refine ⟨answers_concat hUsable.1 ?_, fun t hMem => ?_⟩
      · exact ⟨rfl, by simp [hCtx],
          c, by simp [hAttached]⟩
      rcases List.mem_cons.mp hMem with rfl | hOld
      · refine (usable_single hSound'
          (List.mem_cons_self) hNo).mpr ?_
        simp only [Function.update_self]
        have hInc := hSound.inc call c
        refine (hInc.afu_iff (hSound.tended c)).mpr ?_
        by_cases hTakes : (s.ctxs c).TakesOver call.mode
        · exact Or.inl (hKept.1 c hCard hAlloc hTakes)
        · exact Or.inr
            (attaches_open (hInc.ok_iff.mp hRc) hTakes)
      · exact hStays t hOld t hMem rfl
  | @redundant call ttx hCard hAlloc hNo hCtx hAttached =>
      rcases hKept.2 hCard hAlloc with ⟨hLast, d, hOpen⟩
      have hRc := (hSound.inc call _).ok_iff.mpr hLast
      refine ⟨answers_concat hUsable.1 ?_, fun t hMem => ?_⟩
      · refine ⟨hRc, ?_, lastTried call.start, ?_⟩
        · rcases hCtx with ⟨c, hSome, -⟩ | ⟨-, hNone⟩
          · simp [hSome]
          · exact (hNone _ hRc).elim
        · rw [hAttached, decide_eq_true hRc]
      rcases List.mem_cons.mp hMem with rfl | hOld
      · exact (usable_redundant hNo).mpr
          ⟨d, ((hSound.inc call d).afu_iff
            (hSound.tended d)).mpr hOpen⟩
      · exact hStays t hOld t hMem rfl
  | nothing =>
      exact ⟨answers_concat hUsable.1 trivial,
        fun t hMem => hStays t hMem t hMem rfl⟩
  | closed _ =>
      exact ⟨answers_concat hUsable.1 trivial,
        fun t hMem =>
          hStays t (List.mem_of_mem_erase hMem) t hMem rfl⟩
  | @executed addr ttx hHandle =>
      refine ⟨answers_concat hUsable.1
        (usable_executes
          (hUsable.2 ttx (handle_mem hHandle))),
        fun t hMem => ?_⟩
      rcases mem_executed hMem with hOld | ⟨hOld, hSame⟩
      · exact hStays t hOld t hMem rfl
      · refine hStays ttx hOld t hMem ?_
        rw [hSame, chooseCard_cardNo]
  | chosen _ _ _ =>
      exact ⟨answers_concat hUsable.1 trivial,
        fun t hMem => hStays t hMem t hMem rfl⟩

/- Usable handles behind a call show that it kept them so. -/
theorem handleKept_of_usable
    (hSound : s.Sound)
    (hStep : capiStep s event s')
    (hUsable : HandlesUsable (past ++ [event]) s') :
    HandleKept s event.1 := by
  have hSound' := capiStep_sound hSound hStep
  have hAnswer : AnswerRight event.2 :=
    hUsable.1 event (by simp)
  cases capiStep_outcome hStep with
  | @refused call rc hRefused hRc =>
      rcases hRefused with hNone | hNoAlloc
      · constructor
        · intro c hCard
          rw [hNone] at hCard
          cases hCard
        · intro hCard
          rw [hNone] at hCard
          cases hCard
      · constructor
        · intro c _ hAlloc
          rw [hNoAlloc] at hAlloc
          cases hAlloc
        · intro _ hAlloc
          rw [hNoAlloc] at hAlloc
          cases hAlloc
  | @failed call c hCard hAlloc hRc =>
      constructor
      · intro d hd _ hTakes
        rw [hCard] at hd
        cases hd
        have hOk := (hSound.inc call c).ok_iff.mpr
          (hTakes.imp id (fun h => ⟨h.1, Or.inl h.2⟩))
        exact (hRc hOk).elim
      · intro hNone
        rw [hCard] at hNone
        cases hNone
  | @single call c ttx hCard hAlloc hRc hNo hCtx hAttached =>
      constructor
      · intro d hd _ hTakes
        rw [hCard] at hd
        cases hd
        have hOpen := (usable_single hSound'
          (List.mem_cons_self) hNo).mp
            (hUsable.2 ttx (List.mem_cons_self))
        simp only [Function.update_self] at hOpen
        rcases ((hSound.inc call c).afu_iff
            (hSound.tended c)).mp hOpen with
          hBefore | ⟨hClients, hTid, -⟩
        · exact hBefore
        · simp [CardCtx.TakesOver, hClients, hTid] at hTakes
      · intro hNone
        rw [hCard] at hNone
        cases hNone
  | @redundant call ttx hCard hAlloc hNo hCtx hAttached =>
      constructor
      · intro c hSome
        rw [hCard] at hSome
        cases hSome
      · intro _ _
        rcases (usable_redundant hNo).mp
            (hUsable.2 ttx (List.mem_cons_self)) with
          ⟨c, hOpen⟩
        exact ⟨(hSound.inc call _).ok_iff.mp hAnswer.1,
          c, ((hSound.inc call c).afu_iff
            (hSound.tended c)).mp hOpen⟩
  | nothing => trivial
  | closed _ => trivial
  | executed _ => trivial
  | chosen _ _ _ => trivial

end Steps

/-
  All through a run the handles can be used, and nothing else
  is said about them, exactly if each open finds its cards so
  that its handle can be used.
-/
theorem handlesUsable_iff
    {trace : List CapiEvent} {s : CapiState}
    (hRun : CapiRun trace s) :
    (∀ past s₁,
        past <+: trace → CapiRun past s₁ →
          HandlesUsable past s₁) ↔
      ∀ past event s₁,
        past ++ [event] <+: trace → CapiRun past s₁ →
          HandleKept s₁ event.1 :=
  hRun.all_good_iff
    (fun past s => s.Sound ∧ HandlesUsable past s)
    HandlesUsable
    (fun _ s event => HandleKept s event.1)
    capiStep_unique
    ⟨init_sound, fun _ h => (List.not_mem_nil h).elim,
      fun _ h => (List.not_mem_nil h).elim⟩
    (fun _ _ h => h.2)
    (fun _ _ _ _ h hStep hKept =>
      ⟨capiStep_sound h.1 hStep,
        handlesUsable_step h.1 h.2 hStep hKept⟩)
    (fun _ _ _ _ h hStep hUsable =>
      handleKept_of_usable h.1 hStep hUsable)

------------------------------------------------------------
-- No Card at All
------------------------------------------------------------

/- An open of all cards returns a handle without a card. -/
theorem handlesUsable_fails :
    ¬∀ trace s, CapiRun trace s → HandlesUsable trace s := by
  intro hAll
  have hOpened := CapiRun.open Run.start
    (openPresent (fun _ => false) 0)
  rcases (hAll _ _ hOpened).2 _ (List.mem_cons_self) with
    ⟨c, hCtx, -⟩
  revert hCtx c
  decide

/- The handle chooses a card, and executes on it. -/
def afterExecute : CapiState :=
  (ddcbExecute withAll allHandle).2

/- The handle for all cards is opened and used. -/
def openedAndUsed : List CapiEvent :=
  [] ++
    [CapiState.init.openEvent
      (openPresent (fun _ => true) 0)] ++
    [(.execute 1,
      .executed (ddcbExecute withAll allHandle).1)]

/-
  With every card there the handle can be used: its execute
  is submitted to the next card.
-/
theorem handlesUsable_iff_present :
    CapiRun openedAndUsed afterExecute ∧
      (∀ past s₁,
        past <+: openedAndUsed → CapiRun past s₁ →
          HandlesUsable past s₁) ∧
      (ddcbExecute withAll allHandle).1 =
        .submitted 1 true := by
  have hUsed : CapiRun openedAndUsed afterExecute :=
    withAll_run.execute withAll_handle
  refine ⟨hUsed, ?_, by decide⟩
  apply (handlesUsable_iff hUsed).mpr
  let P : CapiState → CapiEvent → Prop := fun s event =>
    HandleKept s event.1
  have hNone : CapiRun [] CapiState.init := Run.start
  have hKept :
      HandleKept CapiState.init
        (.open (openPresent (fun _ => true) 0)) := by
    constructor
    · intro c hCard
      cases hCard
    · intro _ _
      have hOpens : ∀ c,
          ((openPresent (fun _ => true) 0).attempts c).Opens
            0 :=
        fun _ => ⟨rfl, rfl, rfl, rfl, rfl⟩
      exact ⟨Or.inr ⟨rfl, Or.inr (hOpens _)⟩, 0,
        Or.inr ⟨rfl, rfl, hOpens 0⟩⟩
  have hOpen :=
    Run.all_steps_next P capiStep_unique hNone
      (l := CapiState.init.openEvent
        (openPresent (fun _ => true) 0))
      (fun _ _ _ hPre _ => by simp at hPre) hKept
  exact Run.all_steps_next P capiStep_unique withAll_run
    hOpen trivial

end Capi.Cards
