import GenWqe.Card.Steps

/-
  The list of descriptors against the states of the cards and
  the count of the list.

  Key definitions include:
    * `Listed`
    * `ListKept`

  Main results:
    * `listed_step`
    * `listed_of_kept`
-/

namespace Libcard

------------------------------------------------------------
-- Agreement
------------------------------------------------------------

/-
  No card has two nodes, the cards with a node are those that
  are open, and the nodes are counted.
-/
structure Listed (s : Library) : Prop where
  once : (s.fdMList.map FdNode.cardNum).Nodup
  states :
    ∀ n,
      (∃ node ∈ s.fdMList, node.cardNum = n) ↔
        s.ld.genwqeState n = .cardOpen
  count : s.ld.fdMCount = s.fdMList.length

/-
  There is memory for every node that is needed, and the card
  that the inotify thread has reported is still closed when
  the health thread opens it.
-/
def ListKept (s : Library) : Act → Prop
  | .open call =>
      call.alloc = true →
        call.cardNo = genwqeCardRedundant →
          ∀ entry ∈ call.entries.getD [], ∀ fd alloc,
            entry.attempt = some (.opened fd alloc) →
              alloc = true
  | .health check =>
      ∀ fd alloc, check.reopen = some (.opened fd alloc) →
        alloc = true ∧
          s.ld.genwqeState s.ld.inotifyCard = .cardClosed
  | _ => True

/- A step that keeps the list right. -/
def listStep
    (s : Library)
    (event : LibEvent)
    (s' : Library) : Prop :=
  libStep s event s' ∧ ListKept s event.1

section Agreement

variable {s s' s₁ : Library}

theorem Listed.congr
    (hListed : Listed s)
    (hList : s'.fdMList = s.fdMList)
    (hStates : s'.ld.genwqeState = s.ld.genwqeState)
    (hCount : s'.ld.fdMCount = s.ld.fdMCount) :
    Listed s' := by
  refine ⟨?_, ?_, ?_⟩
  · rw [hList]
    exact hListed.once
  · rw [hList, hStates]
    exact hListed.states
  · rw [hList, hCount]
    exact hListed.count

/- The list behind `__fd_m_add`. -/
theorem fdMAdd_list
    (s : Library)
    (fd : Nat)
    (card : CardNo) :
    (fdMAdd s fd card true).fdMList =
        s.fdMList ++ [⟨s.next, card, fd⟩] ∧
      (fdMAdd s fd card true).ld = s.ld := by
  unfold fdMAdd
  simp only [if_true]
  split
  · exact ⟨rfl, rfl⟩
  · exact ⟨rfl, rfl⟩

theorem openFd_list
    {fd : Nat}
    (hOpen : s.openFd fd = some s₁) :
    s₁.fdMList = s.fdMList ∧ s₁.ld = s.ld := by
  unfold Library.openFd at hOpen
  split at hOpen
  · cases hOpen
  · cases hOpen
    exact ⟨rfl, rfl⟩

/- A closed card is opened. -/
theorem opened_listed
    {fd : Nat} {card : CardNo}
    (hListed : Listed s)
    (hClosed : s.ld.genwqeState card = .cardClosed)
    (hOpen : s.openFd fd = some s₁) :
    Listed ((fdMAdd s₁ fd card true).opened card) := by
  rcases openFd_list hOpen with ⟨hSame, hSameLd⟩
  rcases fdMAdd_list s₁ fd card with ⟨hList, hLd⟩
  rw [hSame] at hList
  rw [hSameLd] at hLd
  have hNew : ∀ node ∈ s.fdMList, node.cardNum ≠ card := by
    intro node hMem hCard
    have hOpenState := (hListed.states card).mp
      ⟨node, hMem, hCard⟩
    rw [hClosed] at hOpenState
    cases hOpenState
  refine ⟨?_, fun n => ?_, ?_⟩
  · change ((fdMAdd s₁ fd card true).fdMList.map _).Nodup
    rw [hList, List.map_append, List.nodup_append]
    refine ⟨hListed.once, List.nodup_singleton _, ?_⟩
    intro a ha b hb
    rcases List.mem_map.mp ha with ⟨node, hMem, rfl⟩
    rw [List.mem_singleton.mp hb]
    exact hNew node hMem
  · change (∃ node ∈ (fdMAdd s₁ fd card true).fdMList, _) ↔
      Function.update (fdMAdd s₁ fd card true).ld.genwqeState
        card .cardOpen n = _
    rw [hList, hLd]
    by_cases hn : n = card
    · subst hn
      rw [Function.update_self]
      exact iff_of_true
        ⟨_, List.mem_append_right _ List.mem_cons_self, rfl⟩
        rfl
    · rw [Function.update_of_ne hn, ← hListed.states n]
      constructor
      · rintro ⟨node, hMem, hCard⟩
        rcases List.mem_append.mp hMem with hOld | hHere
        · exact ⟨node, hOld, hCard⟩
        · rw [List.mem_singleton.mp hHere] at hCard
          exact (hn hCard.symm).elim
      · rintro ⟨node, hMem, hCard⟩
        exact ⟨node, List.mem_append_left _ hMem, hCard⟩
  · change (fdMAdd s₁ fd card true).ld.fdMCount + 1 =
      ((fdMAdd s₁ fd card true).fdMList.length : Int)
    rw [hList, hLd, hListed.count, List.length_append]
    simp

/- A node is removed and its card closed. -/
theorem removed_listed
    {node : FdNode}
    (hSound : Sound s)
    (hListed : Listed s)
    (hMem : node ∈ s.fdMList)
    (hList :
      s'.fdMList =
        s.fdMList.eraseP (fun n => n.mFd == node.mFd))
    (hStates :
      s'.ld.genwqeState =
        Function.update s.ld.genwqeState node.cardNum
          .cardClosed)
    (hCount : s'.ld.fdMCount = s.ld.fdMCount + -1) :
    Listed s' := by
  have hSub : List.Sublist s'.fdMList s.fdMList := by
    rw [hList]
    exact List.eraseP_sublist
  have hFds : (s.fdMList.map FdNode.mFd).Nodup :=
    (List.nodup_append.mp hSound.ownedNodup).1
  have hGone : node ∉ s'.fdMList := by
    intro hHere
    have hFd := List.mem_map_of_mem (f := FdNode.mFd) hHere
    rw [hList, eraseP_mFd] at hFd
    exact hFds.not_mem_erase hFd
  refine ⟨hListed.once.sublist (hSub.map _), fun n => ?_, ?_⟩
  · rw [hStates]
    by_cases hn : n = node.cardNum
    · subst hn
      rw [Function.update_self]
      refine iff_of_false ?_ (fun h => nomatch h)
      rintro ⟨node', hMem', hCard⟩
      have hSame := eq_of_key hListed.once
        (hSub.subset hMem') hMem hCard
      exact hGone (hSame ▸ hMem')
    · rw [Function.update_of_ne hn, ← hListed.states n]
      constructor
      · rintro ⟨node', hMem', hCard⟩
        exact ⟨node', hSub.subset hMem', hCard⟩
      · rintro ⟨node', hMem', hCard⟩
        refine ⟨node', ?_, hCard⟩
        rw [hList]
        refine eraseP_others hSound hMem hMem' ?_
        intro hAddr
        have hSame := eq_of_key hSound.nodes hMem' hMem hAddr
        exact hn (hSame ▸ hCard.symm)
  · have hLength := List.length_eraseP_of_mem hMem
      (p := fun n => n.mFd == node.mFd) (by simp)
    have hPos := List.length_pos_of_mem hMem
    rw [hCount, hListed.count, hList, hLength]
    omega

theorem closeNode_listed
    {node : FdNode}
    (hSound : Sound s)
    (hListed : Listed s)
    (hMem : node ∈ s.fdMList) :
    Listed (closeNode s node) :=
  removed_listed hSound hListed hMem rfl rfl rfl

theorem checkNode_listed
    {node : FdNode} {used : Nat → Bool}
    (hSound : Sound s)
    (hListed : Listed s)
    (hMem : node ∈ s.fdMList) :
    Listed (checkNode used s node) := by
  unfold checkNode
  split
  · exact removed_listed hSound hListed hMem rfl rfl rfl
  · exact hListed

/- Whatever the cards say, a check keeps the list right. -/
theorem checkMulti_listed
    (hSound : Sound s)
    (hListed : Listed s)
    (used : Nat → Bool) :
    Listed (checkMulti s used) :=
  (checkMulti_keeps Listed used hSound
    (fun _ _ hS _ hL hMem => closeNode_listed hS hL hMem)
    (fun _ _ hS hL hMem => checkNode_listed hS hL hMem)
    (hListed.congr rfl rfl rfl)).2

/- The devices for one card have no part in this. -/
theorem shealthCheck_listed
    (hSound : Sound s)
    (hListed : Listed s)
    (used : Nat → Bool) :
    Listed (shealthCheck s used) := by
  have hRelease : ∀ (s : Library) (d : CardDev),
      Listed s → Listed (releaseDev s d) := by
    intro s d h
    unfold releaseDev
    cases d.fdS with
    | none => exact h.congr rfl rfl rfl
    | some fd => exact h.congr rfl rfl rfl
  refine (shealthCheck_keeps Listed used hSound
    (fun s' d _ _ h _ => ?_) hListed).2
  unfold checkDev
  split
  · exact hRelease s' d h
  · cases d.fdS with
    | none => exact h
    | some fd =>
        simp only
        split
        · exact hRelease s' d h
        · exact h

/- A card that is still closed is opened again. -/
theorem inotifyHandle_listed
    {reopen : Option DevOpen}
    (hListed : Listed s)
    (hKept :
      ∀ fd alloc, reopen = some (.opened fd alloc) →
        alloc = true ∧
          s.ld.genwqeState s.ld.inotifyCard = .cardClosed)
    (hHandle : inotifyHandle s reopen = some s') :
    Listed s' := by
  rcases inotifyHandle_cases hHandle with ⟨rfl, -⟩ |
    ⟨fd, alloc, s₁, -, hReopen, hOpen, rfl⟩
  · exact hListed
  · rcases hKept fd alloc hReopen with ⟨rfl, hClosed⟩
    exact (opened_listed hListed hClosed hOpen).congr rfl rfl
      rfl

theorem opening_listed
    {call : OpenCall} {r : Option Nat × Int}
    (hListed : Listed s)
    (hKept : ListKept s (.open call))
    (hOpening : Opening s call r s') :
    Listed s' := by
  have hClose : ∀ (s : Library) (a : Nat),
      Listed s → Listed (cardClose s a) :=
    fun s a h => h.congr rfl rfl rfl
  have hFinish : ∀ (s : Library) (a : Nat)
      (fd : Option Nat),
      Listed s → Listed (finishOpen s call a fd).2 := by
    intro s a fd h
    unfold finishOpen
    split
    · exact h.congr rfl rfl rfl
    · exact hClose s a h
  have hWith : Listed (s.withMulti call) := by
    unfold Library.withMulti
    simp only
    split <;> exact hListed.congr rfl rfl rfl
  have hBound : ∀ (s : Library) (a : Nat),
      Listed s → Listed (s.bound call a) := by
    intro s a h
    unfold Library.bound inotifyCreate
    split
    · exact h.congr rfl rfl rfl
    split <;> exact h.congr rfl rfl rfl
  have hAllListed : ∀ {n : Nat} {s₁ : Library},
      call.alloc = true →
        call.cardNo = genwqeCardRedundant →
          mOpenAll (s.withMulti call) call.entries =
              some (n, s₁) →
            Listed s₁ := by
    intro n s₁ hAlloc hNo hAll
    refine mOpenAll_keeps Listed ?_ hAll hWith
    intro s card fd alloc s₁ h hEntry hClosed hOpen
    rcases hEntry with ⟨entry, hMem, -, hAttempt⟩
    obtain rfl := hKept hAlloc hNo entry hMem fd alloc hAttempt
    exact opened_listed h hClosed hOpen
  cases hOpening with
  | noMemory _ => exact hListed
  | noCards hNo hAll hAlloc =>
      exact hClose _ _ (hAllListed hAlloc hNo hAll)
  | cards hNo hAll hAlloc =>
      exact hFinish _ _ _
        (hBound _ _ (hAllListed hAlloc hNo hAll))
  | noCard _ _ => exact hListed.congr rfl rfl rfl
  | card _ hFd _ =>
      rcases openFd_list hFd with ⟨hList, hLd⟩
      have hFound := hListed.congr hList
        (congrArg LibData.genwqeState hLd)
        (congrArg LibData.fdMCount hLd)
      exact hFinish _ _ _ (hFound.congr rfl rfl rfl)

theorem fdGet_listed
    {dev : Nat} {selected : Option Selected}
    (hListed : Listed s)
    (hGet : fdGet s dev = some (selected, s')) :
    Listed s' := by
  rcases fdGet_cases hGet with rfl | ⟨node, -, rfl⟩
  · exact hListed
  · exact hListed.congr rfl rfl rfl

/- A step that keeps the list right. -/
theorem listed_step
    {event : LibEvent}
    (hSound : Sound s)
    (hListed : Listed s)
    (hStep : libStep s event s')
    (hKept : ListKept s event.1) :
    Listed s' := by
  cases libStep_outcome hStep with
  | opened hOpening =>
      exact opening_listed hListed hKept hOpening
  | closed _ _ => exact hListed.congr rfl rfl rfl
  | closedFreed _ _ => exact hListed.congr rfl rfl rfl
  | executed _ hGet =>
      exact (fdGet_listed hListed hGet).congr rfl rfl rfl
  | executeFreed _ _ => exact hListed
  | done _ _ _ => exact hListed.congr rfl rfl rfl
  | ioctlFreed _ _ => exact hListed.congr rfl rfl rfl
  | retried _ hGet =>
      exact (fdGet_listed hListed hGet).congr rfl rfl rfl
  | busy _ => exact hListed
  | failed _ => exact hListed.congr rfl rfl rfl
  | finished _ => exact hListed.congr rfl rfl rfl
  | @checkedMulti check s₁ _ hHandle =>
      exact checkMulti_listed
        (inotifyHandle_sound hHandle hSound)
        (inotifyHandle_listed hListed hKept hHandle)
        check.used
  | @checkedSingle check _ _ =>
      exact shealthCheck_listed hSound hListed check.used
  | ignored => exact hListed
  | noted _ _ _ => exact hListed.congr rfl rfl rfl

end Agreement

theorem init_listed : Listed Library.init :=
  ⟨List.nodup_nil, fun n => by simp [Library.init], rfl⟩

/-
  Where every node finds memory and the health thread opens
  closed cards only, the list agrees with the states of the
  cards in every state.
-/
theorem listed_of_kept
    {trace : List LibEvent} {s : Library}
    (hRun : Run listStep Library.init trace s) :
    Listed s := by
  have hBoth := hRun.preserves
    (fun s => Sound s ∧ Listed s)
    ⟨init_sound, init_listed⟩
    (fun s event s' h hStep =>
      ⟨libStep_sound h.1 hStep.1,
        listed_step h.1 h.2 hStep.1 hStep.2⟩)
  exact hBoth.2

------------------------------------------------------------
-- An Event Acted on Too Late
------------------------------------------------------------

/- The inotify thread sees that a card has come back. -/
def attribOf (card : Int) : Act :=
  .inotify
    { inAttrib := true, len := 16, cardNo := some card }

/- A health check that opens the card of the slot. -/
def reopens (fd : Nat) : Act :=
  .health
    { reopen := some (.opened fd true)
      used := fun _ => true }

/- The first card is open, the second one could not be. -/
def openFirst : Act :=
  .open (openWith genwqeCardRedundant
    [opens 0 3, opensNot 1] none)

/- Another open for all cards finds the second one. -/
def openSecond : Act :=
  .open (openWith genwqeCardRedundant
    [{ cardNo := some 0, attempt := none }, opens 1 4] none)

/- The state behind these acts. -/
def oneCard : Library := Library.init.after openFirst

def cardNoted : Library := oneCard.after (attribOf 1)

def bothCards : Library := cardNoted.after openSecond

/-
  The second card comes back and is opened by an application
  before the health thread opens it again: it has two nodes.
-/
theorem listed_fails :
    ¬∀ trace s, LibRun trace s → Listed s := by
  intro hAll
  have hFirst := LibRun.act Run.start openFirst rfl
  have hNoted := LibRun.act (s := oneCard) hFirst
    (attribOf 1) rfl
  have hSecond := LibRun.act (s := cardNoted) hNoted
    openSecond rfl
  have hAgain := LibRun.act (s := bothCards) hSecond
    (reopens 5) rfl
  have hOnce := (hAll _ _ hAgain).once
  revert hOnce
  decide

/- Two cards opened at once are listed. -/
theorem listed_two : Listed twoCards := by
  have hRun : Run listStep Library.init
      ([] ++ [Library.init.event openTwo]) twoCards := by
    refine Run.next Run.start ⟨libStep_after rfl, ?_⟩
    intro _ _ entry hMem fd alloc hAttempt
    rcases List.mem_cons.mp hMem with rfl | hMem
    · cases hAttempt
      rfl
    · rcases List.mem_cons.mp hMem with rfl | hMem
      · cases hAttempt
        rfl
      · cases hMem
  exact listed_of_kept hRun

end Libcard
