import GenWqe.Card.Closing

/-
  The tables that are indexed with card numbers: the states
  of the cards, and the counts of completed and of retried
  commands.

  Key definitions include:
    * `Call` and `Tables`
    * `Tables.accesses`
    * `CardsInTables`

  Main results:
    * `sameCards_step`
    * `tracked_step`
    * `inRange_iff`
-/

namespace Libcard

/- The cards in `card_completed_ddcbs` and the other one. -/
def numCards : Nat := 16

------------------------------------------------------------
-- Calls and Their Card Numbers
------------------------------------------------------------

/-
  A call of `__genwqe_card_execute` with its `card_num`, which
  is not initialised at first, and the card that was selected
  for it last, which the code does not keep.
-/
structure Call where
  exec : Exec
  cardNum : Option Int
  last : Option Selected
  deriving DecidableEq, Repr

structure Tables where
  lib : Library
  calls : List Call

def Tables.init : Tables := ⟨Library.init, []⟩

inductive TableAct where
  | open (call : OpenCall)
  | close (dev : Nat)
  | execute (dev : Nat) (len : Nat)
  | ioctl (call : Call) (result : IoctlResult)
  | finish (call : Call)
  | health (check : HealthCheck)
  | inotify (ie : InotifyEvent)

def TableAct.act : TableAct → Act
  | .open call => .open call
  | .close dev => .close dev
  | .execute dev len => .execute dev len
  | .ioctl call result => .ioctl call.exec result
  | .finish call => .finish call.exec
  | .health check => .health check
  | .inotify ie => .inotify ie

def TableAct.call : TableAct → Option Call
  | .ioctl call _ => some call
  | .finish call => some call
  | _ => none

/-
  What `__fd_get` leaves in `card_num`: without a node to
  select nothing is written.
-/
def cardNumGet
    (s : Library)
    (dev : Nat)
    (selected : Option Selected)
    (cardNum : Option Int) : Option Int :=
  match s.dev? dev with
  | none => cardNum
  | some d =>
      if d.cardNo = genwqeCardRedundant then
        (selected.map Selected.cardNum).or cardNum
      else
        some d.cardNo

/- A call behind an `ioctl`, if it goes on. -/
def Call.next
    (s : Library)
    (call : Call) : IoctlResult → Answer → Option Call
  | .done, .again =>
      some { call with
        exec := { call.exec with left := call.exec.left - 1 } }
  | .failed _ _, .got selected =>
      some
        { exec :=
            { call.exec with
              fd := selected.map Selected.fd }
          cardNum :=
            cardNumGet s call.exec.dev selected call.cardNum
          last := selected.or call.last }
  | .failed _ _, .again => some call
  | _, _ => none

/- The calls on their way behind a step. -/
def Tables.callsAfter
    (t : Tables) : TableAct → Answer → List Call
  | .execute dev len, .got selected =>
      { exec := ⟨dev, selected.map Selected.fd, len⟩
        cardNum := cardNumGet t.lib dev selected none
        last := selected } ::
        t.calls
  | .ioctl call result, answer =>
      (call.next t.lib result answer).toList ++
        t.calls.erase call
  | .finish call, _ => t.calls.erase call
  | _, _ => t.calls

/-
  A step of the library, or an event whose number is beyond
  the states of the cards.
-/
def tableCall
    (t : Tables)
    (a : TableAct) : Option (Answer × Tables) :=
  if ∀ call ∈ a.call, call ∈ t.calls then
    match libCall t.lib a.act, a with
    | some (answer, s'), _ =>
        some (answer, ⟨s', t.callsAfter a answer⟩)
    | none, .inotify _ =>
        if t.lib.watching then some (.noted none, t) else none
    | none, _ => none
  else
    none

abbrev TableEvent := TableAct × Answer

def tableStep
    (t : Tables)
    (event : TableEvent)
    (t' : Tables) : Prop :=
  tableCall t event.1 = some (event.2, t')

abbrev TableRun (trace : List TableEvent) (t : Tables) : Prop :=
  Run tableStep Tables.init trace t

------------------------------------------------------------
-- Accesses
------------------------------------------------------------

/- An access to one of the tables with its index. -/
inductive Access where
  | genwqeState (index : Int)
  | cardCompletedDdcbs (index : Option Int)
  | cardRetriedDdcbs (index : Option Int)
  deriving DecidableEq, Repr

/- The index is initialised and in the table. -/
def Access.InRange : Access → Prop
  | .genwqeState i => 0 ≤ i ∧ i < maxFuncNum
  | .cardCompletedDdcbs i => ∃ n ∈ i, 0 ≤ n ∧ n < numCards
  | .cardRetriedDdcbs i => ∃ n ∈ i, 0 ≤ n ∧ n < numCards

/- The accesses of `__m_open_all`. -/
def OpenCall.accesses (call : OpenCall) : List Access :=
  if call.alloc = true ∧
      call.cardNo = genwqeCardRedundant then
    ((call.entries.getD []).filterMap DirEntry.card).map
      (fun card => .genwqeState card.val)
  else []

/- The accesses of `__inotify_handle`. -/
def HealthCheck.accesses
    (check : HealthCheck)
    (s : Library) : List Access :=
  match check.reopen with
  | some (.opened _ _) =>
      if s.mDevs ≠ [] then
        [.genwqeState s.ld.inotifyCard.val]
      else []
  | _ => []

/- The accesses of `__genwqe_card_execute` behind `ioctl`. -/
def Call.accesses
    (call : Call)
    (s : Library) : IoctlResult → List Access
  | .done =>
      match s.dev? call.exec.dev with
      | none => []
      | some _ => [.cardCompletedDdcbs call.cardNum]
  | .failed busy timeout =>
      match s.dev? call.exec.dev with
      | none => []
      | some d =>
          if d.cardNo = genwqeCardRedundant then
            if timeout then []
            else
              match fdGet s call.exec.dev with
              | none => []
              | some (selected, _) =>
                  [.cardRetriedDdcbs
                    (cardNumGet s call.exec.dev selected
                      call.cardNum)]
          else if busy then
            [.cardRetriedDdcbs call.cardNum]
          else []

/- The accesses of a step. -/
def Tables.accesses (t : Tables) : TableAct → List Access
  | .open call => call.accesses
  | .health check => check.accesses t.lib
  | .inotify ie => ie.card.toList.map .genwqeState
  | .ioctl call result => call.accesses t.lib result
  | _ => []

------------------------------------------------------------
-- The Condition
------------------------------------------------------------

/-
  The number of a single card, or of the card of all cards
  that was selected last, is in both tables of counts.
-/
def CardBelow (d : CardDev) (call : Call) : Prop :=
  if d.cardNo = genwqeCardRedundant then
    ∀ selected ∈ call.last, selected.cardNum < numCards
  else
    0 ≤ d.cardNo ∧ d.cardNo < numCards

/-
  The card that is selected next is in the tables of counts;
  if there is none, one was selected before and is.
-/
def NextBelow
    (s : Library)
    (d : CardDev)
    (call : Call) : Prop :=
  match d.mFdPtr with
  | none => ∃ selected ∈ call.last, selected.cardNum < numCards
  | some ptr =>
      ∀ node ∈ s.fdMList, node.addr = ptr →
        node.cardNum.val < numCards

/-
  Events are for cards in the table of states. Commands are
  completed and retried on cards in the tables of counts.
-/
def CardsInTables (t : Tables) : TableAct → Prop
  | .inotify ie => ∀ n ∈ ie.card, 0 ≤ n ∧ n < maxFuncNum
  | .ioctl call .done =>
      ∀ d ∈ t.lib.dev? call.exec.dev, CardBelow d call
  | .ioctl call (.failed busy timeout) =>
      ∀ d ∈ t.lib.dev? call.exec.dev,
        if d.cardNo = genwqeCardRedundant then
          timeout = false → NextBelow t.lib d call
        else
          busy = true → CardBelow d call
  | _ => True

------------------------------------------------------------
-- Devices and Their Cards
------------------------------------------------------------

/- The devices that were there are for the same cards. -/
structure SameCards (s s' : Library) : Prop where
  next : s.next ≤ s'.next
  cards :
    ∀ d' ∈ s'.devs, d'.addr < s.next →
      ∃ d ∈ s.devs, d.addr = d'.addr ∧ d.cardNo = d'.cardNo

section SameCards

variable {s s' s₁ : Library}

theorem SameCards.refl (s : Library) : SameCards s s :=
  ⟨le_rfl, fun d hd _ => ⟨d, hd, rfl, rfl⟩⟩

theorem SameCards.trans
    (hFirst : SameCards s s₁)
    (hSecond : SameCards s₁ s') :
    SameCards s s' := by
  refine ⟨hFirst.next.trans hSecond.next, ?_⟩
  intro d' hd' hOld
  have hNext := hFirst.next
  rcases hSecond.cards d' hd' (by omega) with
    ⟨d₁, hd₁, hAddr₁, hCard₁⟩
  rcases hFirst.cards d₁ hd₁ (by omega) with
    ⟨d, hd, hAddr, hCard⟩
  exact ⟨d, hd, hAddr.trans hAddr₁, hCard.trans hCard₁⟩

/- Devices are removed at most. -/
theorem SameCards.of_subset
    (hM : s'.mDevs ⊆ s.mDevs)
    (hS : s'.sDevs ⊆ s.sDevs)
    (hNext : s.next ≤ s'.next) :
    SameCards s s' := by
  refine ⟨hNext, fun d' hd' _ => ⟨d', ?_, rfl, rfl⟩⟩
  rcases List.mem_append.mp hd' with hMulti | hSingle
  · exact List.mem_append_left _ (hM hMulti)
  · exact List.mem_append_right _ (hS hSingle)

theorem SameCards.of_same
    (hM : s'.mDevs = s.mDevs)
    (hS : s'.sDevs = s.sDevs)
    (hNext : s'.next = s.next) :
    SameCards s s' :=
  of_subset (hM ▸ List.Subset.refl _)
    (hS ▸ List.Subset.refl _) hNext.ge

theorem ListWork.sameCards
    (hWork : ListWork s s') :
    SameCards s s' := by
  refine ⟨hWork.next, ?_⟩
  intro d' hd' _
  rcases hWork.mDevs with ⟨f, hM⟩
  rw [Library.devs, hM, hWork.sDevs] at hd'
  rcases List.mem_append.mp hd' with hMulti | hSingle
  · rcases List.mem_map.mp hMulti with ⟨d, hd, rfl⟩
    exact ⟨d, List.mem_append_left _ hd, rfl, rfl⟩
  · exact ⟨d', List.mem_append_right _ hSingle, rfl, rfl⟩

theorem update_sameCards
    {f : CardDev → CardDev}
    (a : Nat)
    (hAddr : ∀ d, (f d).addr = d.addr)
    (hCard : ∀ d, (f d).cardNo = d.cardNo) :
    SameCards s (s.update a f) := by
  have hAt : ∀ (devs : List CardDev) (d' : CardDev),
      d' ∈ atDev a f devs →
        ∃ d ∈ devs,
          d.addr = d'.addr ∧ d.cardNo = d'.cardNo := by
    intro devs d' hd'
    rcases mem_atDev hd' with
      ⟨d, hd, ⟨-, rfl⟩ | ⟨-, rfl⟩⟩
    · exact ⟨d, hd, (hAddr d).symm, (hCard d).symm⟩
    · exact ⟨d', hd, rfl, rfl⟩
  refine ⟨le_rfl, ?_⟩
  intro d' hd' _
  rcases List.mem_append.mp hd' with hMulti | hSingle
  · rcases hAt s.mDevs d' hMulti with ⟨d, hd, hSame⟩
    exact ⟨d, List.mem_append_left _ hd, hSame⟩
  · rcases hAt s.sDevs d' hSingle with ⟨d, hd, hSame⟩
    exact ⟨d, List.mem_append_right _ hd, hSame⟩

theorem cardClose_sameCards
    (s : Library)
    (dev : Nat) :
    SameCards s (cardClose s dev) :=
  update_sameCards dev (fun _ => rfl) (fun _ => rfl)

theorem finishOpen_sameCards
    (s : Library)
    (call : OpenCall)
    (dev : Nat)
    (fd : Option Nat) :
    SameCards s (finishOpen s call dev fd).2 := by
  unfold finishOpen
  split
  · have hUpdate : SameCards s
        (s.update dev (fun d =>
          { d with devState := .devHaveFd })) :=
      update_sameCards dev (fun _ => rfl) (fun _ => rfl)
    exact hUpdate.trans (.of_same rfl rfl rfl)
  · exact cardClose_sameCards s dev

/- A new device has a new address. -/
theorem SameCards.of_added
    {d : CardDev}
    (hNew : d.addr = s.next)
    (hDevs : ∀ d' ∈ s'.devs, d' ∈ s.devs ∨ d' = d)
    (hNext : s.next ≤ s'.next) :
    SameCards s s' := by
  refine ⟨hNext, ?_⟩
  intro d' hd' hOld
  rcases hDevs d' hd' with hMem | rfl
  · exact ⟨d', hMem, rfl, rfl⟩
  · omega

theorem withMulti_sameCards
    (s : Library)
    (call : OpenCall) :
    SameCards s (s.withMulti call) := by
  have hAdded : ∀ s' : Library,
      s'.mDevs = s.mDevs ++ [call.dev s.next] →
      s'.sDevs = s.sDevs → s'.next = s.next + 1 →
        SameCards s s' := by
    intro s' hM hS hNext
    apply SameCards.of_added (d := call.dev s.next) rfl
    · intro d' hd'
      rw [Library.devs, hM, hS] at hd'
      simp only [Library.devs, List.mem_append,
        List.mem_singleton] at hd' ⊢
      tauto
    · omega
  unfold Library.withMulti
  simp only
  split
  · exact hAdded _ rfl rfl rfl
  · have hNew :=
      hAdded
        { s with
          mDevs := s.mDevs ++ [call.dev s.next]
          next := s.next + 1 }
        rfl rfl rfl
    exact hNew.trans
      (update_sameCards s.next (fun _ => rfl)
        (fun _ => rfl))

theorem withSingle_sameCards
    (s : Library)
    (call : OpenCall) :
    SameCards s (s.withSingle call) := by
  apply SameCards.of_added (d := call.dev s.next) rfl
  · intro d' hd'
    simp only [Library.devs, Library.withSingle,
      List.mem_append, List.mem_singleton] at hd' ⊢
    tauto
  · exact Nat.le_succ _

theorem bound_sameCards
    (s : Library)
    (call : OpenCall)
    (dev : Nat) :
    SameCards s (s.bound call dev) := by
  have hUpdate : SameCards s
      (s.update dev (fun d =>
        { d with
          mFdPtr := s.fdMHead
          fdS := s.fdMList.head?.map FdNode.mFd
          appId := call.readAppId })) :=
    update_sameCards dev (fun _ => rfl) (fun _ => rfl)
  unfold Library.bound inotifyCreate
  split
  · exact hUpdate
  · split
    · exact hUpdate
    · exact hUpdate.trans (.of_same rfl rfl rfl)

theorem opening_sameCards
    {call : OpenCall} {r : Option Nat × Int}
    (hOpening : Opening s call r s') :
    SameCards s s' := by
  cases hOpening with
  | noMemory _ => exact .refl s
  | noCards _ hAll =>
      exact ((withMulti_sameCards s call).trans
        (mOpenAll_work hAll).sameCards).trans
          (cardClose_sameCards _ _)
  | cards _ hAll =>
      exact (((withMulti_sameCards s call).trans
        (mOpenAll_work hAll).sameCards).trans
          (bound_sameCards _ call s.next)).trans
            (finishOpen_sameCards _ call s.next _)
  | noCard _ =>
      exact (withSingle_sameCards s call).trans
        (cardClose_sameCards _ _)
  | @card s₁ fd _ hFd =>
      have hOpen := (withSingle_sameCards s call).trans
        (openFd_work hFd).sameCards
      have hUpdate : SameCards s₁
          (s₁.update s.next (fun d =>
            { d with
              fdS := some fd
              appId := call.readAppId })) :=
        update_sameCards s.next (fun _ => rfl) (fun _ => rfl)
      have hCount : SameCards s₁
          ((s₁.update s.next (fun d =>
            { d with
              fdS := some fd
              appId := call.readAppId })).countFdS 1) :=
        hUpdate.trans (.of_same rfl rfl rfl)
      exact (hOpen.trans hCount).trans
        (finishOpen_sameCards _ call s.next _)

theorem fdGet_sameCards
    {dev : Nat} {selected : Option Selected}
    (hGet : fdGet s dev = some (selected, s')) :
    SameCards s s' := by
  rcases fdGet_cases hGet with rfl | ⟨node, -, rfl⟩
  · exact .refl _
  · exact update_sameCards dev (fun _ => rfl) (fun _ => rfl)

theorem checkMulti_sameCards
    (s : Library)
    (used : Nat → Bool) :
    SameCards s (checkMulti s used) := by
  have hPending :
      SameCards s { s with mDevs := deletePending s.mDevs } :=
    .of_subset (fun _ hd => (mem_deletePending.mp hd).1)
      (List.Subset.refl _) le_rfl
  exact hPending.trans (checkMulti_work s used).sameCards

theorem checkDev_next
    (used : Nat → Bool)
    (s : Library)
    (dev : CardDev) :
    (checkDev used s dev).next = s.next := by
  unfold checkDev releaseDev
  split
  · cases dev.fdS with
    | none => rfl
    | some fd => rfl
  · cases dev.fdS with
    | none => rfl
    | some fd =>
        simp only
        split <;> rfl

theorem shealthCheck_sameCards
    (s : Library)
    (used : Nat → Bool) :
    SameCards s (shealthCheck s used) := by
  have hNext : (shealthCheck s used).next = s.next := by
    unfold shealthCheck
    generalize s.sDevs = devs
    induction devs generalizing s with
    | nil => rfl
    | cons dev rest ih =>
        rw [List.foldl_cons, ih]
        exact checkDev_next used s dev
  apply SameCards.of_subset
  · rw [(shealthCheck_multi s used).1]
    exact List.Subset.refl _
  · exact fun _ hd => (shealthCheck_pending hd).1
  · exact hNext.ge

/- Every step leaves devices with their cards. -/
theorem sameCards_step
    {event : LibEvent}
    (hStep : libStep s event s') :
    SameCards s s' := by
  cases libStep_outcome hStep with
  | opened hOpening => exact opening_sameCards hOpening
  | @closed dev _ _ _ =>
      have hBack : SameCards s (s.giveBack dev) :=
        .of_same rfl rfl rfl
      exact hBack.trans (cardClose_sameCards _ dev)
  | closedFreed _ _ => exact .of_same rfl rfl rfl
  | executed _ hGet =>
      exact (fdGet_sameCards hGet).trans (.of_same rfl rfl rfl)
  | executeFreed _ _ => exact .refl s
  | done _ _ _ => exact .of_same rfl rfl rfl
  | ioctlFreed _ _ => exact .of_same rfl rfl rfl
  | retried _ hGet =>
      exact (fdGet_sameCards hGet).trans (.of_same rfl rfl rfl)
  | busy _ => exact .refl s
  | failed _ => exact .of_same rfl rfl rfl
  | finished _ => exact .of_same rfl rfl rfl
  | checkedMulti _ hHandle =>
      exact (inotifyHandle_work hHandle).sameCards.trans
        (checkMulti_sameCards _ _)
  | checkedSingle _ _ => exact shealthCheck_sameCards s _
  | ignored => exact .refl s
  | noted _ _ _ => exact .of_same rfl rfl rfl

end SameCards

------------------------------------------------------------
-- The Card Number of a Call
------------------------------------------------------------

/-
  A call with a descriptor has a card number. For a single
  card it is the one of the handle, else the one of the node
  that was selected last.
-/
structure Tracked (s : Library) (call : Call) : Prop where
  old : call.exec.dev < s.next
  set : call.exec.fd ≠ none → call.cardNum ≠ none
  single :
    ∀ d ∈ s.devs, d.addr = call.exec.dev →
      d.cardNo ≠ genwqeCardRedundant →
        call.cardNum = some d.cardNo
  multi :
    ∀ d ∈ s.devs, d.addr = call.exec.dev →
      d.cardNo = genwqeCardRedundant →
        call.cardNum = call.last.map Selected.cardNum ∧
          ∀ selected ∈ call.last, 0 ≤ selected.cardNum

/- Reachable states of the tables. -/
structure Tabled (t : Tables) : Prop where
  sound : Sound t.lib
  tracked : ∀ call ∈ t.calls, Tracked t.lib call
  running : (t.calls.map Call.exec).Perm t.lib.running

section Tracked

variable {s s' : Library} {call : Call}

theorem Tracked.step
    (hTracked : Tracked s call)
    (hSame : SameCards s s') :
    Tracked s' call := by
  have hOld := hTracked.old
  refine ⟨hOld.trans_le hSame.next, hTracked.set, ?_, ?_⟩
  · intro d' hd' hAddr hSingle
    rcases hSame.cards d' hd' (hAddr ▸ hOld) with
      ⟨d, hd, hAddr', hCard⟩
    rw [← hCard] at hSingle ⊢
    exact hTracked.single d hd (hAddr'.trans hAddr) hSingle
  · intro d' hd' hAddr hMulti
    rcases hSame.cards d' hd' (hAddr ▸ hOld) with
      ⟨d, hd, hAddr', hCard⟩
    rw [← hCard] at hMulti
    exact hTracked.multi d hd (hAddr'.trans hAddr) hMulti

/- Fewer commands or another length change nothing. -/
theorem Tracked.left
    (hTracked : Tracked s call)
    (left : Nat) :
    Tracked s
      { call with exec := { call.exec with left := left } } :=
  ⟨hTracked.old, hTracked.set, hTracked.single,
    hTracked.multi⟩

/- What `__fd_get` selects, it selects with its card. -/
theorem fdGet_selected
    {dev : Nat} {selected : Option Selected}
    (hGet : fdGet s dev = some (selected, s')) :
    ∃ d, s.dev? dev = some d ∧
      ((d.cardNo ≠ genwqeCardRedundant) ∨
        (d.cardNo = genwqeCardRedundant ∧
          ((d.mFdPtr = none ∧ selected = none) ∨
            ∃ node ∈ s.fdMList,
              d.mFdPtr = some node.addr ∧
                selected = some node.selected))) := by
  unfold fdGet at hGet
  cases hDev : s.dev? dev with
  | none => simp [hDev] at hGet
  | some d =>
      simp only [hDev] at hGet
      refine ⟨d, rfl, ?_⟩
      split at hGet
      · rename_i hMulti
        refine Or.inr ⟨hMulti, ?_⟩
        unfold fdMGetAndInc at hGet
        cases hPtr : d.mFdPtr with
        | none =>
            simp only [hPtr] at hGet
            cases hGet
            exact Or.inl ⟨rfl, rfl⟩
        | some ptr =>
            simp only [hPtr] at hGet
            rcases Option.map_eq_some_iff.mp hGet with
              ⟨⟨node, next⟩, hTurn, hEq⟩
            cases hEq
            rcases turn_mem hTurn with ⟨hMem, hKey⟩
            exact Or.inr ⟨node, hMem, by rw [hKey], rfl⟩
      · rename_i hSingle
        exact Or.inl hSingle

/- A call behind `__fd_get`. -/
theorem fdGet_tracked
    {dev left : Nat} {selected : Option Selected}
    {cardNum : Option Int} {last : Option Selected}
    (hSound : Sound s)
    (hGet : fdGet s dev = some (selected, s'))
    (hBefore :
      ∀ d ∈ s.devs, d.addr = dev →
        d.cardNo = genwqeCardRedundant →
          cardNum = last.map Selected.cardNum ∧
            ∀ old ∈ last, 0 ≤ old.cardNum) :
    Tracked s
      { exec := ⟨dev, selected.map Selected.fd, left⟩
        cardNum := cardNumGet s dev selected cardNum
        last := selected.or last } := by
  rcases fdGet_selected hGet with ⟨d, hDev, hWhich⟩
  rcases dev_mem hDev with ⟨hMem, hAddr⟩
  have hOnly : ∀ d' ∈ s.devs, d'.addr = dev → d' = d := by
    intro d' hd' hAddr'
    exact eq_of_key hSound.devs hd' hMem
      (hAddr'.trans hAddr.symm)
  have hNum :
      cardNumGet s dev selected cardNum =
        if d.cardNo = genwqeCardRedundant then
          (selected.map Selected.cardNum).or cardNum
        else some d.cardNo := by
    simp only [cardNumGet, hDev]
  refine ⟨?_, ?_, ?_, ?_⟩
  · show dev < s.next
    rw [← hAddr]
    exact hSound.devsOld d hMem
  · intro hFd
    show cardNumGet s dev selected cardNum ≠ none
    rw [hNum]
    split
    · cases hSel : selected with
      | none =>
          rw [hSel] at hFd
          exact absurd rfl hFd
      | some sel => exact Option.some_ne_none _
    · exact Option.some_ne_none _
  · intro d' hd' hAddr' hSingle
    rw [hOnly d' hd' hAddr'] at hSingle ⊢
    show cardNumGet s dev selected cardNum = _
    rw [hNum, if_neg hSingle]
  · intro d' hd' hAddr' hMulti
    have hOld := hBefore d' hd' hAddr' hMulti
    rw [hOnly d' hd' hAddr'] at hMulti
    show cardNumGet s dev selected cardNum = _ ∧ _
    rw [hNum, if_pos hMulti]
    rcases hWhich with hSingle | ⟨-, ⟨-, rfl⟩ |
      ⟨node, -, -, rfl⟩⟩
    · exact absurd hMulti hSingle
    · exact hOld
    · refine ⟨rfl, fun now hNow => ?_⟩
      obtain rfl := Option.some.inj hNow
      exact Int.natCast_nonneg _

end Tracked

------------------------------------------------------------
-- The Executes on Their Way
------------------------------------------------------------

section Running

variable {s s' : Library}

theorem finishOpen_running
    (s : Library)
    (call : OpenCall)
    (dev : Nat)
    (fd : Option Nat) :
    (finishOpen s call dev fd).2.running = s.running := by
  unfold finishOpen
  split <;> rfl

theorem opening_running
    {call : OpenCall} {r : Option Nat × Int}
    (hOpening : Opening s call r s') :
    s'.running = s.running := by
  have hMulti : (s.withMulti call).running = s.running := by
    unfold Library.withMulti
    simp only
    split <;> rfl
  cases hOpening with
  | noMemory _ => rfl
  | noCards _ hAll =>
      exact (mOpenAll_work hAll).running.trans hMulti
  | @cards s₁ n _ hAll =>
      have hBound :
          (s₁.bound call s.next).running = s₁.running := by
        unfold Library.bound inotifyCreate
        split
        · rfl
        · split <;> rfl
      rw [finishOpen_running, hBound]
      exact (mOpenAll_work hAll).running.trans hMulti
  | noCard _ => rfl
  | card _ hFd =>
      rw [finishOpen_running]
      exact (openFd_work hFd).running

theorem shealthCheck_running
    (s : Library)
    (used : Nat → Bool) :
    (shealthCheck s used).running = s.running := by
  have hTurn : ∀ s dev,
      (checkDev used s dev).running = s.running := by
    intro s dev
    unfold checkDev releaseDev
    split
    · cases dev.fdS with
      | none => rfl
      | some fd => rfl
    · cases dev.fdS with
      | none => rfl
      | some fd =>
          simp only
          split <;> rfl
  unfold shealthCheck
  generalize s.sDevs = devs
  induction devs generalizing s with
  | nil => rfl
  | cons dev rest ih =>
      rw [List.foldl_cons, ih]
      exact hTurn s dev

theorem fdGet_running
    {dev : Nat} {selected : Option Selected}
    (hGet : fdGet s dev = some (selected, s')) :
    s'.running = s.running := by
  rcases fdGet_cases hGet with rfl | ⟨node, -, rfl⟩ <;> rfl

end Running

section Steps

variable {t t' : Tables} {a : TableAct} {answer : Answer}

/- A step is one of the library, or goes beyond a table. -/
theorem tableStep_outcome
    (hStep : tableStep t (a, answer) t') :
    t' = t ∨
      (∀ call ∈ a.call, call ∈ t.calls) ∧
        libStep t.lib (a.act, answer) t'.lib ∧
          t'.calls = t.callsAfter a answer := by
  unfold tableStep tableCall at hStep
  split at hStep
  swap
  · cases hStep
  rename_i hCalls
  split at hStep
  · rename_i hCall
    cases hStep
    exact Or.inr ⟨hCalls, hCall, rfl⟩
  · split at hStep
    · cases hStep
      exact Or.inl rfl
    · cases hStep
  · cases hStep

/- The calls behind a step are tracked. -/
theorem callsAfter_tracked
    (hTabled : Tabled t)
    (hCalls : ∀ call ∈ a.call, call ∈ t.calls)
    {s' : Library}
    (hStep : libStep t.lib (a.act, answer) s') :
    ∀ call ∈ t.callsAfter a answer, Tracked t.lib call := by
  have hSound := hTabled.sound
  have hOld := hTabled.tracked
  have hErase : ∀ call call', call' ∈ t.calls.erase call →
      Tracked t.lib call' :=
    fun _ _ hMem => hOld _ (List.mem_of_mem_erase hMem)
  intro call hMem
  cases a with
  | execute dev len =>
      cases libStep_outcome hStep with
      | executed _ hGet =>
          rcases List.mem_cons.mp hMem with rfl | hMem
          · have hNone : ∀ d ∈ t.lib.devs, d.addr = dev →
                d.cardNo = genwqeCardRedundant →
                  none = Option.map Selected.cardNum none ∧
                    ∀ old ∈ (none : Option Selected),
                      0 ≤ old.cardNum :=
              fun _ _ _ _ => ⟨rfl, fun _ h => (by cases h)⟩
            have hNew :=
              @fdGet_tracked _ _ dev len _ none none hSound
                hGet hNone
            rwa [Option.or_none] at hNew
          · exact hOld call hMem
      | executeFreed _ _ => exact hOld call hMem
  | ioctl call' result =>
      have hCall := hOld call' (hCalls call' rfl)
      cases libStep_outcome hStep with
      | done _ _ _ =>
          rcases List.mem_cons.mp hMem with rfl | hMem
          · exact hCall.left _
          · exact hErase _ _ hMem
      | ioctlFreed _ _ =>
          cases result <;> exact hErase _ _ hMem
      | retried _ hGet =>
          rcases List.mem_cons.mp hMem with rfl | hMem
          · exact fdGet_tracked hSound hGet hCall.multi
          · exact hErase _ _ hMem
      | busy _ =>
          rcases List.mem_cons.mp hMem with rfl | hMem
          · exact hCall
          · exact hErase _ _ hMem
      | failed _ => exact hErase _ _ hMem
  | finish call' => exact hErase _ _ hMem
  | «open» _ => exact hOld call hMem
  | close _ => exact hOld call hMem
  | health _ => exact hOld call hMem
  | inotify _ => exact hOld call hMem

/- A call that ends is taken off on both sides. -/
theorem erase_running
    {calls : List Call} {running : List Exec} {call : Call}
    (hRunning : (calls.map Call.exec).Perm running)
    (hMem : call ∈ calls) :
    ((calls.erase call).map Call.exec).Perm
      (running.erase call.exec) := by
  have hCalls := (List.perm_cons_erase hMem).map Call.exec
  rw [List.map_cons] at hCalls
  have hBoth := (hRunning.symm.trans hCalls).erase call.exec
  rw [List.erase_cons_head] at hBoth
  exact hBoth.symm

/- A command that is done leaves one less. -/
theorem done_left
    {exec : Exec} {s s' : Library}
    (hStep : libStep s (.ioctl exec .done, .again) s') :
    s'.running =
      { exec with left := exec.left - 1 } ::
        s.running.erase exec := by
  unfold libStep at hStep
  simp only [libCall] at hStep
  split at hStep
  swap
  · cases hStep
  unfold stepExecute at hStep
  cases hFd : exec.fd with
  | none => simp [hFd] at hStep
  | some fd =>
      cases hLeft : exec.left with
      | zero => simp [hFd, hLeft] at hStep
      | succ left =>
          simp only [hFd, hLeft] at hStep
          split at hStep
          · cases hStep
          · split at hStep
            · cases hStep
            · cases hStep
              simp [Library.goOn, Library.leave, ← hFd]

/- The calls are the executes on their way. -/
theorem callsAfter_running
    (hRunning : (t.calls.map Call.exec).Perm t.lib.running)
    (hCalls : ∀ call ∈ a.call, call ∈ t.calls)
    {s' : Library}
    (hStep : libStep t.lib (a.act, answer) s') :
    ((t.callsAfter a answer).map Call.exec).Perm
      s'.running := by
  cases a with
  | execute dev len =>
      cases libStep_outcome hStep with
      | @executed _ _ _ s₁ _ hGet =>
          show List.Perm _ (_ :: s₁.running)
          rw [fdGet_running hGet]
          exact hRunning.cons _
      | executeFreed _ _ => exact hRunning
  | ioctl call result =>
      have hMem := hCalls call rfl
      have hErase := erase_running hRunning hMem
      cases libStep_outcome hStep with
      | done _ _ _ =>
          rw [done_left hStep]
          exact hErase.cons _
      | ioctlFreed _ _ => cases result <;> exact hErase
      | @retried _ _ _ s₁ _ hGet =>
          show List.Perm _ (_ :: s₁.running.erase call.exec)
          rw [fdGet_running hGet]
          exact hErase.cons _
      | busy _ =>
          have hSame :=
            (List.perm_cons_erase hMem).map Call.exec
          exact hSame.symm.trans hRunning
      | failed _ => exact hErase
  | finish call =>
      have hErase := erase_running hRunning (hCalls call rfl)
      cases libStep_outcome hStep with
      | finished _ => exact hErase
  | «open» call =>
      cases libStep_outcome hStep with
      | opened hOpening =>
          rw [opening_running hOpening]
          exact hRunning
  | close dev =>
      cases libStep_outcome hStep with
      | closed _ _ => exact hRunning
      | closedFreed _ _ => exact hRunning
  | health check =>
      cases libStep_outcome hStep with
      | @checkedMulti _ s₁ _ hHandle =>
          have hSame :
              (checkMulti s₁ check.used).running =
                t.lib.running :=
            (checkMulti_work s₁ check.used).running.trans
              (inotifyHandle_work hHandle).running
          rw [hSame]
          exact hRunning
      | checkedSingle _ _ =>
          rw [shealthCheck_running]
          exact hRunning
  | inotify ie =>
      cases libStep_outcome hStep with
      | ignored => exact hRunning
      | noted _ _ _ => exact hRunning

theorem init_tabled : Tabled Tables.init :=
  ⟨init_sound, nofun, List.Perm.refl _⟩

/- Every step keeps the card numbers of the calls. -/
theorem tabled_step
    (hTabled : Tabled t)
    (hStep : tableStep t (a, answer) t') :
    Tabled t' := by
  rcases tableStep_outcome hStep with
    rfl | ⟨hCalls, hLib, hAfter⟩
  · exact hTabled
  · refine ⟨libStep_sound hTabled.sound hLib, ?_, ?_⟩
    · intro call hMem
      rw [hAfter] at hMem
      exact (callsAfter_tracked hTabled hCalls hLib call
        hMem).step (sameCards_step hLib)
    · rw [hAfter]
      exact callsAfter_running hTabled.running hCalls hLib

end Steps

------------------------------------------------------------
-- Accesses in Range
------------------------------------------------------------

section InRange

variable {s : Library} {t t' : Tables} {a : TableAct}
variable {answer : Answer}

/- The number of a card is in the table of states. -/
theorem CardNo.inRange
    (card : CardNo) :
    (Access.genwqeState card.val).InRange :=
  ⟨Int.natCast_nonneg _, Int.ofNat_lt.mpr card.isLt⟩

/- Opening all cards looks at states in the table only. -/
theorem openCall_inRange
    (call : OpenCall) :
    ∀ access ∈ call.accesses, access.InRange := by
  intro access hMem
  unfold OpenCall.accesses at hMem
  split at hMem
  · rcases List.mem_map.mp hMem with ⟨card, -, rfl⟩
    exact CardNo.inRange card
  · exact absurd hMem List.not_mem_nil

/- So does opening a card again. -/
theorem healthCheck_inRange
    (check : HealthCheck)
    (s : Library) :
    ∀ access ∈ check.accesses s, access.InRange := by
  intro access hMem
  unfold HealthCheck.accesses at hMem
  split at hMem
  · split at hMem
    · rw [List.mem_singleton.mp hMem]
      exact CardNo.inRange s.ld.inotifyCard
    · exact absurd hMem List.not_mem_nil
  · exact absurd hMem List.not_mem_nil

/- A call with a card number is in range if its card is. -/
theorem cardBelow_iff
    {call : Call} {d : CardDev}
    (hTracked : Tracked s call)
    (hSet : call.cardNum ≠ none)
    (hMem : d ∈ s.devs)
    (hAddr : d.addr = call.exec.dev) :
    (∃ n ∈ call.cardNum, 0 ≤ n ∧ n < numCards) ↔
      CardBelow d call := by
  rcases Option.ne_none_iff_exists'.mp hSet with ⟨n, hNum⟩
  unfold CardBelow
  split
  · rename_i hMulti
    rcases hTracked.multi d hMem hAddr hMulti with
      ⟨hSame, hNonneg⟩
    rw [hSame] at hNum
    rcases Option.map_eq_some_iff.mp hNum with
      ⟨last, hLast, rfl⟩
    rw [hSame, hLast]
    constructor
    · rintro ⟨m, ⟨⟩, -, hLt⟩ _ ⟨⟩
      exact hLt
    · intro hAll
      exact ⟨_, rfl, hNonneg last hLast, hAll last rfl⟩
  · rename_i hSingle
    rw [hTracked.single d hMem hAddr hSingle]
    simp

/- A command that is done had a descriptor. -/
theorem done_fd
    {exec : Exec} {s' : Library}
    (hStep : libStep s (.ioctl exec .done, answer) s') :
    exec.fd ≠ none := by
  intro hFd
  unfold libStep at hStep
  simp only [libCall, stepExecute, hFd] at hStep
  split at hStep <;> cases hStep

theorem done_inRange
    {call : Call} {s' : Library}
    (hTracked : Tracked s call)
    (hStep : libStep s (.ioctl call.exec .done, answer) s') :
    (∀ access ∈ call.accesses s .done, access.InRange) ↔
      ∀ d ∈ s.dev? call.exec.dev, CardBelow d call := by
  have hSet := hTracked.set (done_fd hStep)
  unfold Call.accesses
  cases hDev : s.dev? call.exec.dev with
  | none => simp
  | some d =>
      rcases dev_mem hDev with ⟨hMem, hAddr⟩
      have hBelow := cardBelow_iff hTracked hSet hMem hAddr
      simp only [List.mem_singleton, forall_eq,
        Option.mem_some_iff, forall_eq', ← hBelow]
      rfl

/- The device of a descriptor that is selected. -/
theorem fdGet_isSome
    {dev : Nat} {d : CardDev}
    (hSound : Sound s)
    (hDev : s.dev? dev = some d) :
    (fdGet s dev).isSome := by
  unfold fdGet
  simp only [hDev]
  split
  · rename_i hMulti
    unfold fdMGetAndInc
    cases hPtr : d.mFdPtr with
    | none => rfl
    | some ptr =>
        have hIn : d ∈ s.mDevs := by
          rcases List.mem_append.mp (dev_mem hDev).1 with
            hIn | hIn
          · exact hIn
          · exact absurd hMulti (hSound.single d hIn)
        rcases hSound.cursorIn d hIn ptr hPtr with
          ⟨node, hNode, rfl⟩
        have hHere :
            (entryAt FdNode.addr s.fdMList
              node.addr).isSome :=
          entryAt_isSome hNode
        unfold turn
        simpa using hHere
  · rfl

/- Selecting again, for a call on all cards. -/
theorem retried_inRange
    {call : Call} {d : CardDev}
    (hSound : Sound s)
    (hTracked : Tracked s call)
    (hDev : s.dev? call.exec.dev = some d)
    (hMulti : d.cardNo = genwqeCardRedundant)
    {selected : Option Selected} {s' : Library}
    (hGet : fdGet s call.exec.dev = some (selected, s')) :
    (Access.cardRetriedDdcbs
      (cardNumGet s call.exec.dev selected
        call.cardNum)).InRange ↔
      NextBelow s d call := by
  rcases dev_mem hDev with ⟨hMem, hAddr⟩
  have hNum :
      cardNumGet s call.exec.dev selected call.cardNum =
        (selected.map Selected.cardNum).or call.cardNum := by
    simp only [cardNumGet, hDev, if_pos hMulti]
  rcases fdGet_selected hGet with ⟨d', hDev', hWhich⟩
  rw [hDev] at hDev'
  cases hDev'
  rw [hNum]
  rcases hWhich with hSingle |
    ⟨-, ⟨hPtr, rfl⟩ | ⟨node, hNode, hPtr, rfl⟩⟩
  · exact absurd hMulti hSingle
  · simp only [NextBelow, hPtr, Access.InRange,
      Option.map_none, Option.none_or]
    rcases hTracked.multi d hMem hAddr hMulti with
      ⟨hSame, hNonneg⟩
    rw [hSame]
    constructor
    · rintro ⟨n, hn, -, hLt⟩
      rcases Option.map_eq_some_iff.mp hn with
        ⟨last, hLast, rfl⟩
      exact ⟨last, hLast, hLt⟩
    · rintro ⟨last, hLast, hLt⟩
      exact ⟨_, Option.map_eq_some_iff.mpr ⟨last, hLast, rfl⟩,
        hNonneg last hLast, hLt⟩
  · simp only [NextBelow, hPtr, Access.InRange,
      Option.map_some, Option.some_or, Option.mem_some_iff,
      exists_eq_left']
    show 0 ≤ (node.cardNum.val : Int) ∧
      (node.cardNum.val : Int) < (numCards : Int) ↔ _
    rw [Int.ofNat_lt]
    constructor
    · rintro ⟨-, hLt⟩ node' hNode' hSame
      rw [eq_of_key hSound.nodes hNode' hNode hSame]
      exact hLt
    · intro hAll
      exact ⟨Int.natCast_nonneg _, hAll node hNode rfl⟩

theorem failed_inRange
    {call : Call} {busy timeout : Bool}
    (hSound : Sound s)
    (hTracked : Tracked s call) :
    (∀ access ∈ call.accesses s (.failed busy timeout),
        access.InRange) ↔
      ∀ d ∈ s.dev? call.exec.dev,
        if d.cardNo = genwqeCardRedundant then
          timeout = false → NextBelow s d call
        else
          busy = true → CardBelow d call := by
  unfold Call.accesses
  cases hDev : s.dev? call.exec.dev with
  | none => simp
  | some d =>
      rcases dev_mem hDev with ⟨hMem, hAddr⟩
      simp only [Option.mem_some_iff, forall_eq']
      split
      · rename_i hMulti
        cases timeout with
        | true => simp
        | false =>
            rcases Option.isSome_iff_exists.mp
              (fdGet_isSome hSound hDev) with
              ⟨⟨selected, s'⟩, hGet⟩
            rw [hGet]
            simp only [Bool.false_eq_true, if_false,
              List.mem_singleton, forall_eq, true_imp_iff]
            exact retried_inRange hSound hTracked hDev hMulti
              hGet
      · rename_i hSingle
        cases busy with
        | false => simp
        | true =>
            have hSet : call.cardNum ≠ none := by
              rw [hTracked.single d hMem hAddr hSingle]
              exact Option.some_ne_none _
            have hBelow :=
              cardBelow_iff hTracked hSet hMem hAddr
            simp only [if_true, List.mem_singleton, forall_eq,
              true_imp_iff, ← hBelow]
            rfl

/- The accesses of a step are in range if its cards are. -/
theorem accesses_inRange
    (hTabled : Tabled t)
    (hStep : tableStep t (a, answer) t') :
    (∀ access ∈ t.accesses a, access.InRange) ↔
      CardsInTables t a := by
  cases a with
  | «open» call =>
      exact iff_of_true (openCall_inRange call) trivial
  | close dev => exact iff_of_true nofun trivial
  | execute dev len => exact iff_of_true nofun trivial
  | finish call => exact iff_of_true nofun trivial
  | health check =>
      exact iff_of_true (healthCheck_inRange check t.lib)
        trivial
  | inotify ie =>
      simp [Tables.accesses, CardsInTables, Access.InRange]
  | ioctl call result =>
      have hCalls : call ∈ t.calls ∧
          ∃ s', libStep t.lib (.ioctl call.exec result, answer)
            s' := by
        unfold tableStep tableCall at hStep
        split at hStep
        swap
        · cases hStep
        rename_i hCalls
        refine ⟨hCalls call rfl, ?_⟩
        split at hStep
        · rename_i hCall
          cases hStep
          exact ⟨_, hCall⟩
        · rename_i hIe
          cases hIe
        · cases hStep
      rcases hCalls with ⟨hMem, s', hLib⟩
      have hTracked := hTabled.tracked call hMem
      cases result with
      | done => exact done_inRange hTracked hLib
      | failed busy timeout =>
          exact failed_inRange hTabled.sound hTracked

end InRange

------------------------------------------------------------
-- Runs
------------------------------------------------------------

theorem tableStep_unique
    (t : Tables)
    (event : TableEvent)
    (t₁ t₂ : Tables)
    (hStep₁ : tableStep t event t₁)
    (hStep₂ : tableStep t event t₂) : t₁ = t₂ :=
  (Prod.mk.inj (Option.some.inj (hStep₁.symm.trans hStep₂))).2

/-
  Along a run every table is accessed in range if and only if
  its events and the cards of its commands are in the tables.
-/
theorem inRange_iff
    {trace : List TableEvent} {t : Tables}
    (hRun : TableRun trace t) :
    (∀ past event t₁,
        past ++ [event] <+: trace → TableRun past t₁ →
          ∀ access ∈ t₁.accesses event.1, access.InRange) ↔
      ∀ past event t₁,
        past ++ [event] <+: trace → TableRun past t₁ →
          CardsInTables t₁ event.1 := by
  apply Run.all_steps_iff Tabled
    (fun t event =>
      ∀ access ∈ t.accesses event.1, access.InRange)
    (fun t event => CardsInTables t event.1)
    tableStep_unique
  · exact init_tabled
  · exact fun t event t' hTabled hStep _ =>
      tabled_step hTabled hStep
  · exact fun t event t' hTabled hStep =>
      accesses_inRange hTabled hStep
  · exact hRun

------------------------------------------------------------
-- Runs of Given Acts
------------------------------------------------------------

/- The event that an act is in a state. -/
def Tables.event (t : Tables) (a : TableAct) : TableEvent :=
  (a, ((tableCall t a).map Prod.fst).getD .freed)

/- The state behind an act. -/
def Tables.after (t : Tables) (a : TableAct) : Tables :=
  ((tableCall t a).map Prod.snd).getD t

theorem tableStep_after
    {t : Tables} {a : TableAct}
    (hCan : (tableCall t a).isSome) :
    tableStep t (t.event a) (t.after a) := by
  unfold tableStep Tables.event Tables.after
  cases hCall : tableCall t a with
  | none => simp [hCall] at hCan
  | some r => rfl

/- Two cards are opened for all cards. -/
def openPair : TableAct :=
  .open (openWith genwqeCardRedundant [opens 0 3, opens 1 4]
    none)

def pairOpen : Tables := Tables.init.after openPair

theorem pairOpen_run :
    TableRun ([] ++ [Tables.init.event openPair]) pairOpen :=
  Run.next Run.start (tableStep_after rfl)

/- A command on the first of them. -/
def firstCall : Call :=
  ⟨⟨1, some 3, 1⟩, some 0, some ⟨3, 0⟩⟩

def pairRuns : Tables := pairOpen.after (.execute 1 1)

theorem pairRuns_run :
    TableRun
      ([] ++ [Tables.init.event openPair] ++
        [pairOpen.event (.execute 1 1)])
      pairRuns :=
  Run.next pairOpen_run (tableStep_after rfl)

/- What happens to both of them. -/
def pairTrace : List TableEvent :=
  [] ++ [Tables.init.event openPair] ++
    [pairOpen.event (.execute 1 1)] ++
      [pairRuns.event (.ioctl firstCall .done)]

/- It is executed, and all accesses are in range. -/
theorem inRange_pair :
    TableRun pairTrace
        (pairRuns.after (.ioctl firstCall .done)) ∧
      ∀ past event t₁,
        past ++ [event] <+: pairTrace →
          TableRun past t₁ →
            ∀ access ∈ t₁.accesses event.1,
              access.InRange := by
  have hDone :
      TableRun pairTrace
        (pairRuns.after (.ioctl firstCall .done)) :=
    Run.next pairRuns_run
      (tableStep_after (t := pairRuns)
        (a := .ioctl firstCall .done) rfl)
  refine ⟨hDone, ?_⟩
  apply (inRange_iff hDone).mpr
  let P : Tables → TableEvent → Prop := fun t event =>
    CardsInTables t event.1
  have hNone : TableRun [] Tables.init := Run.start
  have hFirst :=
    Run.all_steps_next P tableStep_unique hNone
      (l := Tables.init.event openPair)
      (fun _ _ _ hPre _ => by simp at hPre) trivial
  have hSecond :=
    Run.all_steps_next P tableStep_unique pairOpen_run hFirst
      (l := pairOpen.event (.execute 1 1)) trivial
  apply Run.all_steps_next P tableStep_unique pairRuns_run
    hSecond
  intro d hd
  obtain rfl := Option.some.inj hd
  rintro n ⟨⟩
  decide

/- Both cards have failed. -/
def pairFails : TableAct :=
  .health { reopen := none, used := fun _ => false }

def pairGone : Tables := pairOpen.after pairFails

/- A command without any card. -/
def noCardCall : Call := ⟨⟨1, none, 1⟩, none, none⟩

def callGone : Tables := pairGone.after (.execute 1 1)

/-
  The command fails, and is counted at a number that was
  never initialised.
-/
theorem inRange_fails :
    ¬∀ trace t, TableRun trace t →
      ∀ past event t₁,
        past ++ [event] <+: trace → TableRun past t₁ →
          ∀ access ∈ t₁.accesses event.1,
            access.InRange := by
  intro hAll
  have hGone :=
    Run.next pairOpen_run
      (tableStep_after (t := pairOpen) (a := pairFails) rfl)
  have hCall :=
    Run.next hGone
      (tableStep_after (t := pairGone) (a := .execute 1 1)
        rfl)
  have hRetry :=
    Run.next hCall
      (tableStep_after (t := callGone)
        (a := .ioctl noCardCall (.failed false false)) rfl)
  have hRange :=
    hAll _ _ hRetry _ _ callGone (List.prefix_refl _) hCall
      (.cardRetriedDdcbs none) (List.mem_singleton.mpr rfl)
  rcases hRange with ⟨n, hNone, -⟩
  cases hNone

end Libcard
