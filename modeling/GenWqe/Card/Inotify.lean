import GenWqe.Card.Steps

/-
  The one slot through which the inotify thread tells the
  health thread which card to open again.

  Key definitions include:
    * `waiting`
    * `NoneLost`
    * `OneAtATime`

  Main results:
    * `noneLost_of_kept`
-/

namespace Libcard

------------------------------------------------------------
-- Cards That Wait
------------------------------------------------------------

/- The card of an event that was found closed. -/
def LibEvent.noted : LibEvent → Option CardNo
  | (_, .noted card) => card
  | _ => none

/- The cards that a step tries to open. -/
def LibEvent.attempts : LibEvent → List CardNo
  | (.open call, _) =>
      if call.alloc = true ∧
          call.cardNo = genwqeCardRedundant then
        (call.entries.getD []).filterMap (fun entry =>
          if entry.attempt.isSome then entry.card else none)
      else
        []
  | (_, .checked card) => card.toList
  | _ => []

/- The cards that wait behind an event. -/
def LibEvent.waits
    (wait : CardNo → Bool)
    (event : LibEvent)
    (c : CardNo) : Bool :=
  decide (event.noted = some c) ||
    (wait c && decide (c ∉ event.attempts))

/-
  An event for the card was accepted, and the card has not
  been tried since.
-/
def waiting (trace : List LibEvent) : CardNo → Bool :=
  trace.foldl LibEvent.waits (fun _ => false)

theorem waiting_concat
    (trace : List LibEvent)
    (event : LibEvent) :
    waiting (trace ++ [event]) =
      event.waits (waiting trace) := by
  unfold waiting
  rw [List.foldl_append]
  rfl

/-
  Whenever the health thread handles events now, it tries
  each card that waits.
-/
def NoneLost
    (trace : List LibEvent)
    (s : Library) : Prop :=
  ∀ c, waiting trace c = true → s.mDevs ≠ [] →
    ∀ check answer s',
      libStep s (.health check, answer) s' →
        c ∈ LibEvent.attempts (.health check, answer)

/-
  No event is accepted while an event for another card has
  not been acted on yet.
-/
def OneAtATime
    (past : List LibEvent)
    (event : LibEvent) : Prop :=
  ∀ d, event.noted = some d →
    ∀ c, waiting past c = true → c = d

/- What waits is in the slot, and the thread has its number. -/
structure InSlot
    (trace : List LibEvent)
    (s : Library) : Prop where
  slot :
    ∀ c, waiting trace c = true →
      s.ld.inotifyEvent = .inotifyAttrib ∧
        s.ld.inotifyCard = c
  tid :
    ∀ c, waiting trace c = true → s.ld.inotifyTid = true
  watching : s.watching = true → s.ld.inotifyTid = true

/- The parts that the inotify thread works on. -/
structure SlotKept (s s' : Library) : Prop where
  event : s'.ld.inotifyEvent = s.ld.inotifyEvent
  card : s'.ld.inotifyCard = s.ld.inotifyCard
  tid : s'.ld.inotifyTid = s.ld.inotifyTid
  watching : s'.watching = s.watching

section Slots

variable {s s' s₁ s₂ : Library}

theorem SlotKept.refl (s : Library) : SlotKept s s :=
  ⟨rfl, rfl, rfl, rfl⟩

theorem SlotKept.trans
    (hFirst : SlotKept s s₁)
    (hSecond : SlotKept s₁ s₂) :
    SlotKept s s₂ :=
  ⟨hSecond.event.trans hFirst.event,
    hSecond.card.trans hFirst.card,
    hSecond.tid.trans hFirst.tid,
    hSecond.watching.trans hFirst.watching⟩

theorem openFd_slot
    {fd : Nat}
    (hOpen : s.openFd fd = some s₁) :
    SlotKept s s₁ := by
  unfold Library.openFd at hOpen
  split at hOpen
  · cases hOpen
  · cases hOpen
    exact ⟨rfl, rfl, rfl, rfl⟩

theorem fdMAdd_slot
    (s : Library)
    (fd : Nat)
    (card : CardNo)
    (alloc : Bool) :
    SlotKept s (fdMAdd s fd card alloc) := by
  unfold fdMAdd
  simp only
  split
  · exact ⟨rfl, rfl, rfl, rfl⟩
  · exact ⟨rfl, rfl, rfl, rfl⟩

theorem mOpenAll_slot
    {entries : Option (List DirEntry)} {n : Nat}
    (hAll : mOpenAll s entries = some (n, s')) :
    SlotKept s s' :=
  mOpenAll_keeps (SlotKept s)
    (fun _ card fd alloc _ h _ _ hOpen =>
      ((h.trans (openFd_slot hOpen)).trans
        (fdMAdd_slot _ fd card alloc)).trans
          ⟨rfl, rfl, rfl, rfl⟩)
    hAll (SlotKept.refl s)

theorem checkMulti_slot
    (hSound : Sound s)
    (used : Nat → Bool) :
    SlotKept s (checkMulti s used) := by
  refine (checkMulti_keeps (SlotKept s) used hSound
    (fun s' node _ _ h _ => h.trans ⟨rfl, rfl, rfl, rfl⟩)
    (fun s' node _ h _ => h.trans ?_)
    ⟨rfl, rfl, rfl, rfl⟩).2
  unfold checkNode
  split
  · exact ⟨rfl, rfl, rfl, rfl⟩
  · exact SlotKept.refl s'

theorem shealthCheck_slot
    (hSound : Sound s)
    (used : Nat → Bool) :
    SlotKept s (shealthCheck s used) := by
  have hRelease : ∀ (s : Library) (d : CardDev),
      SlotKept s (releaseDev s d) := by
    intro s d
    unfold releaseDev
    cases d.fdS with
    | none => exact ⟨rfl, rfl, rfl, rfl⟩
    | some fd => exact ⟨rfl, rfl, rfl, rfl⟩
  refine (shealthCheck_keeps (SlotKept s) used hSound
    (fun s' d _ _ h _ => h.trans ?_) (SlotKept.refl s)).2
  unfold checkDev
  split
  · exact hRelease s' d
  · cases d.fdS with
    | none => exact SlotKept.refl s'
    | some fd =>
        simp only
        split
        · exact hRelease s' d
        · exact SlotKept.refl s'

theorem fdGet_slot
    {dev : Nat} {selected : Option Selected}
    (hGet : fdGet s dev = some (selected, s')) :
    SlotKept s s' := by
  rcases fdGet_cases hGet with rfl | ⟨node, -, rfl⟩
  · exact SlotKept.refl _
  · exact ⟨rfl, rfl, rfl, rfl⟩

theorem finishOpen_slot
    (s : Library)
    (call : OpenCall)
    (dev : Nat)
    (fd : Option Nat) :
    SlotKept s (finishOpen s call dev fd).2 := by
  unfold finishOpen
  split
  · exact ⟨rfl, rfl, rfl, rfl⟩
  · exact ⟨rfl, rfl, rfl, rfl⟩

theorem withMulti_slot
    (s : Library)
    (call : OpenCall) :
    SlotKept s (s.withMulti call) := by
  unfold Library.withMulti
  simp only
  split
  · exact ⟨rfl, rfl, rfl, rfl⟩
  · exact ⟨rfl, rfl, rfl, rfl⟩

/- An open starts the inotify thread at most. -/
theorem opening_slot
    {call : OpenCall} {r : Option Nat × Int}
    (hOpening : Opening s call r s') :
    SlotKept s s' ∨
      (s.ld.inotifyTid = false ∧
        (s'.watching = true →
          s.watching = true ∨ s'.ld.inotifyTid = true)) := by
  cases hOpening with
  | noMemory _ => exact Or.inl (SlotKept.refl s)
  | noCards hNo hAll _ =>
      exact Or.inl (((withMulti_slot s call).trans
        (mOpenAll_slot hAll)).trans ⟨rfl, rfl, rfl, rfl⟩)
  | @cards s₁ n hNo hAll _ =>
      have hOpened := (withMulti_slot s call).trans
        (mOpenAll_slot hAll)
      have hFinish := finishOpen_slot
        (s₁.bound call s.next) call s.next
        (s₁.fdMList.head?.map FdNode.mFd)
      cases hTid : s₁.ld.inotifyTid with
      | true =>
          refine Or.inl ((hOpened.trans ?_).trans hFinish)
          have hSame : s₁.bound call s.next =
              s₁.update s.next (fun d =>
                { d with
                  mFdPtr := s₁.fdMHead
                  fdS := s₁.fdMList.head?.map FdNode.mFd
                  appId := call.readAppId }) := by
            unfold Library.bound inotifyCreate
            exact if_pos hTid
          rw [hSame]
          exact ⟨rfl, rfl, rfl, rfl⟩
      | false =>
          refine Or.inr ⟨hOpened.tid ▸ hTid, ?_⟩
          rw [hFinish.watching, hFinish.tid,
            ← hOpened.watching]
          unfold Library.bound inotifyCreate
          split
          · exact Or.inl
          split
          · exact Or.inl
          · intro hWatch
            change (s₁.watching || call.watch.thread) = true
              at hWatch
            rcases Bool.or_eq_true_iff.mp hWatch with
              hOld | hNew
            · exact Or.inl hOld
            · exact Or.inr (by simp [hNew])
  | noCard _ _ => exact Or.inl ⟨rfl, rfl, rfl, rfl⟩
  | card _ hFd _ =>
      have hFound : SlotKept s (s.withSingle call) :=
        ⟨rfl, rfl, rfl, rfl⟩
      refine Or.inl (((hFound.trans (openFd_slot hFd)).trans
        ?_).trans (finishOpen_slot _ call s.next _))
      exact ⟨rfl, rfl, rfl, rfl⟩

end Slots

------------------------------------------------------------
-- Steps
------------------------------------------------------------

section Steps

variable {s s' : Library} {past : List LibEvent}
variable {event : LibEvent}

/- Without a new event the cards that wait waited before. -/
theorem waits_old
    {wait : CardNo → Bool} {c : CardNo}
    (hNone : event.noted = none)
    (hWaits : event.waits wait c = true) :
    wait c = true ∧ c ∉ event.attempts := by
  unfold LibEvent.waits at hWaits
  simpa [hNone] using hWaits

/- A step that leaves the slot alone and notes nothing. -/
theorem inSlot_kept
    (hSlot : InSlot past s)
    (hNone : event.noted = none)
    (hKept : SlotKept s s') :
    InSlot (past ++ [event]) s' := by
  refine ⟨fun c hWaits => ?_, fun c hWaits => ?_, ?_⟩
  · rw [waiting_concat] at hWaits
    have hOld := hSlot.slot c (waits_old hNone hWaits).1
    exact ⟨hKept.event.trans hOld.1,
      hKept.card.trans hOld.2⟩
  · rw [waiting_concat] at hWaits
    exact hKept.tid.trans
      (hSlot.tid c (waits_old hNone hWaits).1)
  · rw [hKept.watching, hKept.tid]
    exact hSlot.watching

/- The health thread tries the card of the slot. -/
theorem inSlot_checked
    {check : HealthCheck} {s₁ : Library}
    (hSound : Sound s)
    (hSlot : InSlot past s)
    (hHandle : inotifyHandle s check.reopen = some s₁) :
    InSlot
      (past ++
        [(.health check,
          .checked
            (check.reopen.map
              (fun _ => s.ld.inotifyCard)))])
      (checkMulti s₁ check.used) := by
  have hWork := inotifyHandle_work hHandle
  have hChecked := checkMulti_slot
    (inotifyHandle_sound hHandle hSound) check.used
  have hNone : ∀ c,
      waiting
          (past ++
            [(.health check,
              .checked
                (check.reopen.map
                  (fun _ => s.ld.inotifyCard)))]) c ≠
        true := by
    intro c hWaits
    rw [waiting_concat] at hWaits
    rcases waits_old rfl hWaits with ⟨hOld, hNot⟩
    rcases hSlot.slot c hOld with ⟨hEvent, hCard⟩
    have hSome : ∃ attempt, check.reopen = some attempt := by
      rcases inotifyHandle_cases hHandle with
        ⟨-, ⟨hIdle, -⟩ | ⟨-, hReopen⟩⟩ |
          ⟨fd, alloc, s₂, -, hReopen, -⟩
      · rw [hEvent] at hIdle
        cases hIdle
      · exact ⟨_, hReopen⟩
      · exact ⟨_, hReopen⟩
    rcases hSome with ⟨attempt, hReopen⟩
    apply hNot
    simp [LibEvent.attempts, hReopen, hCard]
  refine ⟨fun c hWaits => (hNone c hWaits).elim,
    fun c hWaits => (hNone c hWaits).elim, ?_⟩
  rw [hChecked.watching, hChecked.tid, hWork.watching,
    hWork.tid]
  exact hSlot.watching

/- One step with at most one card waiting. -/
theorem inSlot_step
    (hSound : Sound s)
    (hSlot : InSlot past s)
    (hOne : OneAtATime past event)
    (hStep : libStep s event s') :
    InSlot (past ++ [event]) s' := by
  cases libStep_outcome hStep with
  | opened hOpening =>
      rcases opening_slot hOpening with
        hKept | ⟨hTid, hWatch⟩
      · exact inSlot_kept hSlot rfl hKept
      · have hNone : ∀ c, waiting past c ≠ true := by
          intro c hWaits
          have hSet := hSlot.tid c hWaits
          rw [hTid] at hSet
          cases hSet
        refine ⟨fun c hWaits => ?_, fun c hWaits => ?_,
          fun hWatching => ?_⟩
        · rw [waiting_concat] at hWaits
          exact (hNone c (waits_old rfl hWaits).1).elim
        · rw [waiting_concat] at hWaits
          exact (hNone c (waits_old rfl hWaits).1).elim
        · rcases hWatch hWatching with hOld | hNew
          · have hSet := hSlot.watching hOld
            rw [hTid] at hSet
            cases hSet
          · exact hNew
  | closed _ _ =>
      exact inSlot_kept hSlot rfl ⟨rfl, rfl, rfl, rfl⟩
  | closedFreed _ _ =>
      exact inSlot_kept hSlot rfl ⟨rfl, rfl, rfl, rfl⟩
  | executed _ hGet =>
      exact inSlot_kept hSlot rfl
        ((fdGet_slot hGet).trans ⟨rfl, rfl, rfl, rfl⟩)
  | executeFreed _ _ =>
      exact inSlot_kept hSlot rfl (SlotKept.refl s)
  | done _ _ _ =>
      exact inSlot_kept hSlot rfl ⟨rfl, rfl, rfl, rfl⟩
  | ioctlFreed _ _ =>
      exact inSlot_kept hSlot rfl ⟨rfl, rfl, rfl, rfl⟩
  | retried _ hGet =>
      exact inSlot_kept hSlot rfl
        ((fdGet_slot hGet).trans ⟨rfl, rfl, rfl, rfl⟩)
  | busy _ => exact inSlot_kept hSlot rfl (SlotKept.refl s)
  | failed _ =>
      exact inSlot_kept hSlot rfl ⟨rfl, rfl, rfl, rfl⟩
  | finished _ =>
      exact inSlot_kept hSlot rfl ⟨rfl, rfl, rfl, rfl⟩
  | checkedMulti _ hHandle =>
      exact inSlot_checked hSound hSlot hHandle
  | @checkedSingle check _ _ =>
      exact inSlot_kept hSlot rfl
        (shealthCheck_slot hSound check.used)
  | ignored => exact inSlot_kept hSlot rfl (SlotKept.refl s)
  | @noted ie card hWatching _ _ =>
      have hTid := hSlot.watching hWatching
      have hHere : ∀ c,
          waiting (past ++
            [(.inotify ie, .noted (some card))]) c = true →
              c = card := by
        intro c hWaits
        rw [waiting_concat] at hWaits
        unfold LibEvent.waits at hWaits
        rcases Bool.or_eq_true_iff.mp hWaits with
          hNew | hOld
        · exact (Option.some.inj (of_decide_eq_true hNew)).symm
        · exact hOne card rfl c
            (Bool.and_eq_true_iff.mp hOld).1
      exact ⟨fun c hWaits => ⟨rfl, (hHere c hWaits).symm⟩,
        fun _ _ => hTid, fun _ => hTid⟩

/- What waits in the slot is tried next. -/
theorem InSlot.noneLost
    (hSlot : InSlot past s) :
    NoneLost past s := by
  intro c hWaits hSome check answer s' hStep
  rcases hSlot.slot c hWaits with ⟨hEvent, hCard⟩
  cases libStep_outcome hStep with
  | checkedSingle hNone _ => exact (hSome hNone).elim
  | checkedMulti _ hHandle =>
      rcases inotifyHandle_cases hHandle with
        ⟨-, ⟨hIdle, -⟩ | ⟨-, hReopen⟩⟩ |
          ⟨fd, alloc, s₂, -, hReopen, -⟩
      · rw [hEvent] at hIdle
        cases hIdle
      · simp [LibEvent.attempts, hReopen, hCard]
      · simp [LibEvent.attempts, hReopen, hCard]

end Steps

/-
  Where no event is accepted while another card waits, each
  event leads to an attempt to open its card.
-/
theorem noneLost_of_kept
    {trace : List LibEvent} {s : Library}
    (hRun : LibRun trace s)
    (hOne :
      ∀ past event, past ++ [event] <+: trace →
        OneAtATime past event) :
    NoneLost trace s := by
  have hBoth : Sound s ∧ InSlot trace s := by
    induction hRun with
    | start =>
        refine ⟨init_sound, ⟨fun c h => ?_, fun c h => ?_,
          fun h => ?_⟩⟩
        · cases h
        · cases h
        · cases h
    | @next past s₁ s₂ event hPast hStep ih =>
        rcases ih (fun past' event' hPre =>
          hOne past' event'
            (hPre.trans (List.prefix_append _ _))) with
          ⟨hSound, hSlot⟩
        exact ⟨libStep_sound hSound hStep,
          inSlot_step hSound hSlot
            (hOne _ _ (List.prefix_refl _)) hStep⟩
  exact hBoth.2.noneLost

------------------------------------------------------------
-- Two Cards Coming Back
------------------------------------------------------------

/- One card is open, two others could not be. -/
def openOneOfThree : Act :=
  .open (openWith genwqeCardRedundant
    [opens 0 3, opensNot 1, opensNot 2] none)

/- The inotify thread sees that a card has come back. -/
def comesBack (card : Int) : Act :=
  .inotify
    { inAttrib := true, len := 16, cardNo := some card }

/- The states behind these acts. -/
def oneOfThree : Library := Library.init.after openOneOfThree

def firstBack : Library := oneOfThree.after (comesBack 1)

def bothBack : Library := firstBack.after (comesBack 2)

/- A health check that fails to open the card of the slot. -/
def checkFails : HealthCheck :=
  { reopen := some .failed, used := fun _ => true }

/-
  Two cards come back before the health thread looks: the
  first of them is forgotten.
-/
theorem noneLost_fails :
    ¬∀ trace s, LibRun trace s → NoneLost trace s := by
  intro hAll
  have hOpened := LibRun.act Run.start openOneOfThree rfl
  have hFirst := LibRun.act (s := oneOfThree) hOpened
    (comesBack 1) rfl
  have hBoth := LibRun.act (s := firstBack) hFirst
    (comesBack 2) rfl
  have hStep : libStep bothBack
      (bothBack.event (.health checkFails))
      (bothBack.after (.health checkFails)) :=
    libStep_after rfl
  have hTried := hAll _ bothBack hBoth 1 rfl
    (List.cons_ne_nil _ _) checkFails _ _ hStep
  revert hTried
  decide

/- One card comes back and is tried. -/
theorem noneLost_one :
    NoneLost
      ([] ++ [Library.init.event openOneOfThree] ++
        [oneOfThree.event (comesBack 1)])
      firstBack := by
  have hOpened := LibRun.act Run.start openOneOfThree rfl
  have hFirst := LibRun.act (s := oneOfThree) hOpened
    (comesBack 1) rfl
  refine noneLost_of_kept hFirst (fun past event hPre => ?_)
  rcases List.prefix_concat_iff.mp hPre with hEq | hPre
  · rcases List.append_inj' hEq rfl with ⟨rfl, hLast⟩
    intro d _ c hWaits
    have hNone : ∀ c, waiting
        ([] ++ [Library.init.event openOneOfThree]) c =
          false := fun _ => rfl
    rw [hNone] at hWaits
    cases hWaits
  · rcases List.prefix_concat_iff.mp hPre with hEq | hPre
    · rcases List.append_inj' hEq rfl with ⟨rfl, hLast⟩
      intro d _ c hWaits
      cases hWaits
    · have hNil := List.prefix_nil.mp hPre
      simp at hNil

end Libcard
