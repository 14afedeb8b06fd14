import GenWqe.Card.Lifetime

/-
  Closing devices: which requests a health check carries out,
  and what `libcard_exit` leaves.

  Key definitions include:
    * `libcardExit`
    * `lostNodes`
    * `NonePending`, `Closed`

  Main results:
    * `tally_step`
    * `nonePending_iff`
    * `closes_iff`
-/

------------------------------------------------------------
-- The End of the Library
------------------------------------------------------------

namespace Libcard

/- All devices are requested to close. -/
def requestAll (s : Library) : Library :=
  { s with
    sDevs :=
      s.sDevs.map (fun d => { d with devState := .devReqClose })
    mDevs :=
      s.mDevs.map
        (fun d => { d with devState := .devReqClose }) }

/- The inotify thread is stopped. -/
def inotifyStop (s : Library) : Library :=
  if s.ld.inotifyTid then
    { s with
      ld := { s.ld with inotifyTid := false }
      watching := false }
  else s

/- `libcard_exit`; the check is the last one. -/
def libcardExit
    (s : Library)
    (check : HealthCheck) : Option Library :=
  fixupFdLists (inotifyStop (requestAll s)) check

/- `__fixup_fd_lists` where no descriptor is closed twice. -/
def strictFixup
    (s : Library)
    (check : HealthCheck) : Option Library :=
  if s.mDevs ≠ [] then
    (inotifyHandle s check.reopen).bind (fun s' =>
      strictMulti s' check.used)
  else if check.reopen ≠ none then
    none
  else
    strictSingle s check.used

/- No request is left. -/
def NonePending (s : Library) : Prop :=
  ∀ d ∈ s.devs, d.devState ≠ .devReqClose

/-
  All is closed. Neither a check of the run before nor the
  last one closed a descriptor twice; nothing but the checks
  closes any.
-/
structure Closed
    (trace : List LibEvent)
    (s : Library)
    (check : HealthCheck)
    (s' : Library) : Prop where
  sDevs : s'.sDevs = []
  mDevs : s'.mDevs = []
  fdMList : s'.fdMList = []
  fdSCount : s'.ld.fdSCount = 0
  fdMCount : s'.ld.fdMCount = 0
  fds : s'.fds = []
  once :
    ∀ past check' answer s₁,
      past ++ [(.health check', answer)] <+: trace →
        LibRun past s₁ →
          strictFixup s₁ check' = fixupFdLists s₁ check'
  last :
    strictFixup (inotifyStop (requestAll s)) check = some s'

------------------------------------------------------------
-- Lost Nodes
------------------------------------------------------------

/- A descriptor was opened without memory for its node. -/
def DevOpen.lost : DevOpen → Nat
  | .opened _ false => 1
  | _ => 0

def DirEntry.lost (entry : DirEntry) : Nat :=
  (entry.attempt.map DevOpen.lost).getD 0

def OpenCall.lost (call : OpenCall) : Nat :=
  if call.alloc = true ∧
      call.cardNo = genwqeCardRedundant then
    ((call.entries.getD []).map DirEntry.lost).sum
  else 0

def HealthCheck.lost (check : HealthCheck) : Nat :=
  (check.reopen.map DevOpen.lost).getD 0

def LibEvent.lost : LibEvent → Nat
  | (.open call, _) => call.lost
  | (.health check, _) => check.lost
  | _ => 0

/- The descriptors of a run that are on no list. -/
def lostNodes (trace : List LibEvent) : Nat :=
  (trace.map LibEvent.lost).sum

@[simp] theorem lostNodes_concat
    (trace : List LibEvent)
    (event : LibEvent) :
    lostNodes (trace ++ [event]) =
      lostNodes trace + event.lost := by
  simp [lostNodes]

------------------------------------------------------------
-- The Tally
------------------------------------------------------------

/-
  The counts against the lists, and the open descriptors
  against those on a list, `n` being on none.
-/
structure Tally (n : Nat) (s : Library) : Prop where
  fdM : s.ld.fdMCount = s.fdMList.length + n
  fdS :
    s.ld.fdSCount = (s.sDevs.filterMap CardDev.fdS).length
  fds : s.fds.length = s.owned.length + n

section Tally

variable {n : Nat} {s s' s₁ : Library}

theorem length_owned (s : Library) :
    s.owned.length =
      s.fdMList.length +
        (s.sDevs.filterMap CardDev.fdS).length := by
  unfold Library.owned
  rw [List.length_append, List.length_map]

theorem init_tally : Tally 0 Library.init :=
  ⟨rfl, rfl, rfl⟩

/- The tally looks at these parts only. -/
theorem Tally.congr
    (hTally : Tally n s)
    (hS :
      s'.sDevs.filterMap CardDev.fdS =
        s.sDevs.filterMap CardDev.fdS)
    (hList : s'.fdMList = s.fdMList)
    (hFds : s'.fds = s.fds)
    (hCountM : s'.ld.fdMCount = s.ld.fdMCount)
    (hCountS : s'.ld.fdSCount = s.ld.fdSCount) :
    Tally n s' := by
  refine ⟨?_, ?_, ?_⟩
  · rw [hCountM, hList]
    exact hTally.fdM
  · rw [hCountS, hS]
    exact hTally.fdS
  · rw [hFds, length_owned, hList, hS, ← length_owned]
    exact hTally.fds

/- A card is opened, with a node or without. -/
theorem opened_tally
    {fd : Nat} {card : CardNo} {alloc : Bool}
    (hTally : Tally n s)
    (hOpen : s.openFd fd = some s₁) :
    Tally (n + (DevOpen.opened fd alloc).lost)
      ((fdMAdd s₁ fd card alloc).opened card) := by
  have hNew :
      s₁.ld = s.ld ∧ s₁.fdMList = s.fdMList ∧
        s₁.sDevs = s.sDevs ∧
        s₁.fds.length = s.fds.length + 1 := by
    unfold Library.openFd at hOpen
    split at hOpen
    · cases hOpen
    · cases hOpen
      exact ⟨rfl, rfl, rfl, rfl⟩
  rcases hNew with ⟨hLd, hList, hS, hFds⟩
  have hAdd :
      (fdMAdd s₁ fd card alloc).ld = s₁.ld ∧
        (fdMAdd s₁ fd card alloc).sDevs = s₁.sDevs ∧
        (fdMAdd s₁ fd card alloc).fds = s₁.fds ∧
        (fdMAdd s₁ fd card alloc).fdMList.length +
            (DevOpen.opened fd alloc).lost =
          s₁.fdMList.length + 1 := by
    unfold fdMAdd
    cases alloc <;> simp only <;> split <;>
      exact ⟨rfl, rfl, rfl, by simp [DevOpen.lost, fdMHeadAll]⟩
  rcases hAdd with ⟨hLd', hS', hFds', hLen⟩
  have hM := hTally.fdM
  have hOwned := hTally.fds
  rw [length_owned] at hOwned
  rw [hList] at hLen
  refine ⟨?_, ?_, ?_⟩
  · show (fdMAdd s₁ fd card alloc).ld.fdMCount + 1 =
      ((fdMAdd s₁ fd card alloc).fdMList.length : Int) + _
    rw [hLd', hLd, hM]
    omega
  · show (fdMAdd s₁ fd card alloc).ld.fdSCount =
      ((fdMAdd s₁ fd card alloc).sDevs.filterMap _).length
    rw [hLd', hLd, hS', hS]
    exact hTally.fdS
  · show (fdMAdd s₁ fd card alloc).fds.length = _
    rw [length_owned, hFds', hFds, hOwned]
    show _ =
      (fdMAdd s₁ fd card alloc).fdMList.length +
        ((fdMAdd s₁ fd card alloc).sDevs.filterMap _).length +
        _
    rw [hS', hS]
    omega

theorem mOpenEntry_tally
    {entry : DirEntry} {k : Nat}
    (hTally : Tally n s)
    (hEntry : mOpenEntry s entry = some (k, s')) :
    Tally (n + entry.lost) s' := by
  unfold mOpenEntry at hEntry
  unfold DirEntry.lost
  cases hCard : entry.card with
  | none =>
      simp only [hCard] at hEntry
      split at hEntry
      · rename_i hNone
        cases hEntry
        rw [hNone]
        exact hTally
      · cases hEntry
  | some card =>
      simp only [hCard] at hEntry
      cases hState : s.ld.genwqeState card with
      | cardOpen =>
          cases hAttempt : entry.attempt with
          | some a => simp [hState, hAttempt] at hEntry
          | none =>
              simp only [hState, hAttempt] at hEntry
              cases hEntry
              exact hTally
      | cardClosed =>
          cases hAttempt : entry.attempt with
          | none => simp [hState, hAttempt] at hEntry
          | some a =>
              simp only [hState, hAttempt] at hEntry
              rcases Option.map_eq_some_iff.mp hEntry with
                ⟨⟨ok, s₂⟩, hAdd, hEq⟩
              rcases mOpenAdd_cases hAdd with
                ⟨rfl, rfl, rfl⟩ |
                  ⟨fd, alloc, s₁, rfl, rfl, hOpen, rfl⟩
              · cases hEq
                exact hTally
              · cases hEq
                exact opened_tally hTally hOpen

theorem mOpenEntries_tally
    {entries : List DirEntry} {k : Nat}
    (hTally : Tally n s)
    (hEntries : mOpenEntries s entries = some (k, s')) :
    Tally (n + (entries.map DirEntry.lost).sum) s' := by
  induction entries generalizing s n k with
  | nil =>
      cases hEntries
      exact hTally
  | cons entry rest ih =>
      rw [mOpenEntries] at hEntries
      rcases Option.bind_eq_some_iff.mp hEntries with
        ⟨⟨m, s₁⟩, hEntry, hRest⟩
      rcases Option.map_eq_some_iff.mp hRest with
        ⟨⟨m', s₂⟩, hRest', hEq⟩
      cases hEq
      have hAll :=
        ih (mOpenEntry_tally hTally hEntry) hRest'
      rw [List.map_cons, List.sum_cons, ← Nat.add_assoc]
      exact hAll

theorem mOpenAll_tally
    {entries : Option (List DirEntry)} {k : Nat}
    (hTally : Tally n s)
    (hAll : mOpenAll s entries = some (k, s')) :
    Tally (n + ((entries.getD []).map DirEntry.lost).sum)
      s' := by
  cases entries with
  | none =>
      cases hAll
      exact hTally
  | some entries => exact mOpenEntries_tally hTally hAll

theorem inotifyHandle_tally
    {reopen : Option DevOpen}
    (hTally : Tally n s)
    (hHandle : inotifyHandle s reopen = some s') :
    Tally (n + (reopen.map DevOpen.lost).getD 0) s' := by
  rcases inotifyHandle_cases hHandle with ⟨rfl, hWhich⟩ |
    ⟨fd, alloc, s₁, -, rfl, hOpen, rfl⟩
  · rcases hWhich with ⟨-, rfl⟩ | ⟨-, rfl⟩ <;> exact hTally
  · have hOpened :=
      @opened_tally n s s₁ fd s.ld.inotifyCard alloc hTally
        hOpen
    exact hOpened.congr rfl rfl rfl rfl rfl

/- A node is removed and its descriptor closed. -/
theorem removed_tally
    {node : FdNode}
    (hSound : Sound s)
    (hTally : Tally n s)
    (hMem : node ∈ s.fdMList)
    (hList :
      s'.fdMList =
        s.fdMList.eraseP (fun n => n.mFd == node.mFd))
    (hFds : s'.fds = s.fds.erase node.mFd)
    (hS : s'.sDevs = s.sDevs)
    (hM : s'.ld.fdMCount = s.ld.fdMCount + -1)
    (hCount : s'.ld.fdSCount = s.ld.fdSCount) :
    Tally n s' := by
  have hOpen := hSound.list_open hMem
  have hLen :
      s'.fdMList.length = s.fdMList.length - 1 := by
    rw [hList]
    exact List.length_eraseP_of_mem hMem (by simp)
  have hPos := List.length_pos_of_mem hMem
  have hFdsLen : s'.fds.length = s.fds.length - 1 := by
    rw [hFds]
    exact List.length_erase_of_mem hOpen
  have hFdsPos := List.length_pos_of_mem hOpen
  have hFdM := hTally.fdM
  have hAll := hTally.fds
  rw [length_owned] at hAll
  refine ⟨?_, ?_, ?_⟩
  · rw [hM, hFdM, hLen]
    omega
  · rw [hCount, hS]
    exact hTally.fdS
  · rw [hFdsLen, length_owned, hLen, hS]
    omega

theorem checkMulti_tally
    (hSound : Sound s)
    (hTally : Tally n s)
    (used : Nat → Bool) :
    Tally n (checkMulti s used) := by
  refine (checkMulti_keeps (Tally n) used hSound ?_ ?_ ?_).2
  · intro s node hS _ hT hMem
    exact removed_tally hS hT hMem rfl rfl rfl rfl rfl
  · intro s node hS hT hMem
    unfold checkNode
    split
    · exact removed_tally hS hT hMem rfl rfl rfl rfl rfl
    · exact hT
  · exact hTally.congr rfl rfl rfl rfl rfl

/- A device is deleted with its descriptor. -/
theorem releaseDev_tally
    {dev : CardDev}
    (hSound : Sound s)
    (hTally : Tally n s)
    (hMem : dev ∈ s.sDevs) :
    Tally n (releaseDev s dev) := by
  have hPerm := (release_perm hSound hMem).length_eq
  have hFdM := hTally.fdM
  have hFdS := hTally.fdS
  have hAll := hTally.fds
  have hList :
      (sNodeDelete s dev).fdMList = s.fdMList := rfl
  rw [List.length_append, length_owned, length_owned, hList]
    at hPerm
  rw [length_owned] at hAll
  unfold releaseDev
  cases hFd : dev.fdS with
  | none =>
      rw [hFd] at hPerm
      simp only [Option.toList_none, List.length_nil] at hPerm
      refine ⟨hFdM, ?_, ?_⟩
      · show s.ld.fdSCount =
          ((sNodeDelete s dev).sDevs.filterMap _).length
        rw [hFdS]
        omega
      · show s.fds.length =
          (sNodeDelete s dev).owned.length + n
        rw [length_owned, hAll, hList]
        omega
  | some fd =>
      have hOpen := hSound.dev_open hMem hFd
      have hLen := List.length_erase_of_mem hOpen
      have hPos := List.length_pos_of_mem hOpen
      rw [hFd] at hPerm
      simp only [Option.toList_some, List.length_singleton]
        at hPerm
      refine ⟨hFdM, ?_, ?_⟩
      · show s.ld.fdSCount + -1 =
          ((sNodeDelete s dev).sDevs.filterMap _).length
        rw [hFdS]
        omega
      · show (s.fds.erase fd).length =
          (sNodeDelete s dev).owned.length + n
        rw [length_owned, hLen, hAll, hList]
        omega

theorem shealthCheck_tally
    (hSound : Sound s)
    (hTally : Tally n s)
    (used : Nat → Bool) :
    Tally n (shealthCheck s used) := by
  refine (shealthCheck_keeps (Tally n) used hSound ?_
    hTally).2
  intro s' dev _ hS hT hMem
  unfold checkDev
  split
  · exact releaseDev_tally hS hT hMem
  · cases hFd : dev.fdS with
    | none => exact hT
    | some fd =>
        simp only
        split
        · exact releaseDev_tally hS hT hMem
        · exact hT

/- Devices change other than in what they own. -/
theorem update_tally
    {a : Nat} {f : CardDev → CardDev}
    (hTally : Tally n s)
    (hFd :
      ∀ d ∈ s.sDevs, d.addr = a → (f d).fdS = d.fdS) :
    Tally n (s.update a f) :=
  hTally.congr (atDev_fdS hFd) rfl rfl rfl rfl

theorem cardClose_tally
    (hTally : Tally n s)
    (dev : Nat) :
    Tally n (cardClose s dev) :=
  update_tally hTally (fun _ _ _ => rfl)

theorem finishOpen_tally
    (hTally : Tally n s)
    (call : OpenCall)
    (dev : Nat)
    (fd : Option Nat) :
    Tally n (finishOpen s call dev fd).2 := by
  unfold finishOpen
  split
  · exact (update_tally (a := dev)
      (f := fun d => { d with devState := .devHaveFd })
      hTally (fun _ _ _ => rfl)).congr rfl rfl rfl rfl rfl
  · exact cardClose_tally hTally dev

theorem withMulti_tally
    (hSound : Sound s)
    (hTally : Tally n s)
    (call : OpenCall) :
    Tally n (s.withMulti call) := by
  unfold Library.withMulti
  split
  · exact hTally.congr rfl rfl rfl rfl rfl
  · refine update_tally
      (hTally.congr rfl rfl rfl rfl rfl) ?_
    intro d hd hAddr
    have hOld :=
      hSound.devsOld d (List.mem_append_right _ hd)
    omega

theorem withSingle_tally
    (hTally : Tally n s)
    (call : OpenCall) :
    Tally n (s.withSingle call) := by
  refine hTally.congr ?_ rfl rfl rfl rfl
  unfold Library.withSingle
  simp only [List.filterMap_append]
  exact List.append_nil _

theorem bound_tally
    (hTally : Tally n s)
    (hMulti : ∀ d ∈ s.sDevs, d.addr ≠ s₁.next)
    (call : OpenCall) :
    Tally n (s.bound call s₁.next) := by
  have hUpdate :
      Tally n
        (s.update s₁.next (fun d =>
          { d with
            mFdPtr := s.fdMHead
            fdS := s.fdMList.head?.map FdNode.mFd
            appId := call.readAppId })) :=
    update_tally hTally
      (fun d hd hAddr => absurd hAddr (hMulti d hd))
  unfold Library.bound inotifyCreate
  split
  · exact hUpdate
  · split
    · exact hUpdate
    · exact hUpdate.congr rfl rfl rfl rfl rfl

/- The one card is opened. -/
theorem openOne_tally
    {call : OpenCall} {fd : Nat}
    (hSound : Sound s)
    (hTally : Tally n s)
    (hFd : (s.withSingle call).openFd fd = some s₁) :
    Tally n
      ((s₁.update s.next (fun d =>
        { d with
          fdS := some fd
          appId := call.readAppId })).countFdS 1) := by
  unfold Library.openFd at hFd
  split at hFd
  · cases hFd
  cases hFd
  have hOthers :
      atDev s.next
          (fun d =>
            { d with
              fdS := some fd
              appId := call.readAppId })
          (s.sDevs ++ [call.dev s.next]) =
        s.sDevs ++
          [{ call.dev s.next with
              fdS := some fd
              appId := call.readAppId }] := by
    unfold atDev
    rw [List.map_append]
    congr 1
    · calc
        _ = s.sDevs.map id := by
          apply List.map_congr_left
          intro d hd
          have hOld :=
            hSound.devsOld d (List.mem_append_right _ hd)
          rw [if_neg (by omega)]
          rfl
        _ = s.sDevs := List.map_id _
    · simp [OpenCall.dev]
  have hLen :
      ((atDev s.next
          (fun d =>
            { d with
              fdS := some fd
              appId := call.readAppId })
          (s.sDevs ++ [call.dev s.next])).filterMap
            CardDev.fdS).length =
        (s.sDevs.filterMap CardDev.fdS).length + 1 := by
    rw [hOthers, List.filterMap_append, List.length_append]
    rfl
  have hAll := hTally.fds
  rw [length_owned] at hAll
  refine ⟨hTally.fdM, ?_, ?_⟩
  · show s.ld.fdSCount + 1 = _
    rw [hTally.fdS]
    exact (congrArg Nat.cast hLen).symm
  · show s.fds.length + 1 = _
    rw [length_owned, hAll]
    have hSame :
        s.fdMList.length +
            (s.sDevs.filterMap CardDev.fdS).length + n + 1 =
          s.fdMList.length +
            ((s.sDevs.filterMap CardDev.fdS).length + 1) +
            n := by
      omega
    rw [hSame, ← hLen]
    rfl

theorem opening_tally
    {call : OpenCall} {r : Option Nat × Int}
    (hSound : Sound s)
    (hTally : Tally n s)
    (hOpening : Opening s call r s') :
    Tally (n + call.lost) s' := by
  unfold OpenCall.lost
  cases hOpening with
  | noMemory hAlloc =>
      rw [if_neg (by simp [hAlloc])]
      exact hTally
  | noCards hNo hAll hAlloc =>
      rw [if_pos ⟨hAlloc, hNo⟩]
      exact cardClose_tally
        (mOpenAll_tally (withMulti_tally hSound hTally call)
          hAll) _
  | cards hNo hAll hAlloc =>
      rw [if_pos ⟨hAlloc, hNo⟩]
      have hOpened :=
        mOpenAll_tally (withMulti_tally hSound hTally call)
          hAll
      apply finishOpen_tally
      apply bound_tally hOpened
      exact withMulti_single hSound hAll
  | noCard hNo hAlloc =>
      rw [if_neg (fun h => hNo h.2)]
      exact cardClose_tally (withSingle_tally hTally call) _
  | card hNo hFd hAlloc =>
      rw [if_neg (fun h => hNo h.2)]
      apply finishOpen_tally
      exact openOne_tally hSound hTally hFd

/- Selecting a descriptor moves a cursor at most. -/
theorem fdGet_tally
    {dev : Nat} {selected : Option Selected}
    (hTally : Tally n s)
    (hGet : fdGet s dev = some (selected, s')) :
    Tally n s' := by
  rcases fdGet_cases hGet with rfl | ⟨node, _, rfl⟩
  · exact hTally
  · exact update_tally hTally (fun _ _ _ => rfl)

/- One step adds what it loses. -/
theorem tally_step
    {event : LibEvent}
    (hSound : Sound s)
    (hTally : Tally n s)
    (hStep : libStep s event s') :
    Tally (n + event.lost) s' := by
  cases libStep_outcome hStep with
  | opened hOpening =>
      exact opening_tally hSound hTally hOpening
  | @closed dev _ _ _ =>
      have hBack : Tally n (s.giveBack dev) :=
        hTally.congr rfl rfl rfl rfl rfl
      exact cardClose_tally hBack dev
  | closedFreed _ _ =>
      exact hTally.congr rfl rfl rfl rfl rfl
  | @executed dev _ _ s₁ _ hGet =>
      have hGot : Tally n s₁ := fdGet_tally hTally hGet
      exact hGot.congr rfl rfl rfl rfl rfl
  | executeFreed _ _ => exact hTally
  | done _ _ _ => exact hTally.congr rfl rfl rfl rfl rfl
  | ioctlFreed _ _ =>
      exact hTally.congr rfl rfl rfl rfl rfl
  | retried _ hGet =>
      exact (fdGet_tally hTally hGet).congr rfl rfl rfl rfl
        rfl
  | busy _ => exact hTally
  | failed _ => exact hTally.congr rfl rfl rfl rfl rfl
  | finished _ => exact hTally.congr rfl rfl rfl rfl rfl
  | @checkedMulti check s₁ _ hHandle =>
      exact checkMulti_tally
        (inotifyHandle_sound hHandle hSound)
        (inotifyHandle_tally hTally hHandle) check.used
  | @checkedSingle check _ hReopen =>
      have hNone : LibEvent.lost (.health check,
          .checked (check.reopen.map
            (fun _ => s.ld.inotifyCard))) = 0 := by
        simp [LibEvent.lost, HealthCheck.lost, hReopen]
      rw [hNone]
      exact shealthCheck_tally hSound hTally check.used
  | ignored => exact hTally
  | noted _ _ _ => exact hTally.congr rfl rfl rfl rfl rfl

/- A run loses what its steps lose. -/
theorem tally_run
    {trace : List LibEvent}
    (hRun : LibRun trace s) :
    Tally (lostNodes trace) s := by
  have hBoth : Sound s ∧ Tally (lostNodes trace) s := by
    induction hRun with
    | start => exact ⟨init_sound, init_tally⟩
    | next _ hStep ih =>
        rw [lostNodes_concat]
        exact ⟨libStep_sound ih.1 hStep,
          tally_step ih.1 ih.2 hStep⟩
  exact hBoth.2

end Tally

------------------------------------------------------------
-- What Checks Leave
------------------------------------------------------------

section Checks

variable {s s' : Library}

theorem nodes_work
    (f : Library → FdNode → Library)
    (hWork : ∀ s node, ListWork s (f s node))
    (nodes : List FdNode)
    (s : Library) :
    ListWork s (nodes.foldl f s) := by
  induction nodes generalizing s with
  | nil => exact ListWork.refl s
  | cons node rest ih =>
      rw [List.foldl_cons]
      exact (hWork s node).trans (ih _)

theorem checkMulti_work
    (s : Library)
    (used : Nat → Bool) :
    ListWork
      { s with mDevs := deletePending s.mDevs }
      (checkMulti s used) := by
  unfold checkMulti
  simp only
  split
  · exact nodes_work closeNode closeNode_work _ _
  · exact nodes_work _ (checkNode_work used) _ _

/- No pending device is left for all cards. -/
theorem checkMulti_pending
    {used : Nat → Bool} {d : CardDev}
    (hMem : d ∈ (checkMulti s used).mDevs) :
    d.devState ≠ .devReqClose := by
  rcases (checkMulti_work s used).mDevs with ⟨f, hM⟩
  rw [hM] at hMem
  rcases List.mem_map.mp hMem with ⟨d', hd', rfl⟩
  exact (mem_deletePending.mp hd').2

/- Each turn of the closing loop takes the first node. -/
theorem closeNode_all
    (nodes : List FdNode)
    (hNodes : s.fdMList = nodes) :
    (nodes.foldl closeNode s).fdMList = [] := by
  induction nodes generalizing s with
  | nil => exact hNodes
  | cons node rest ih =>
      rw [List.foldl_cons]
      apply ih
      show s.fdMList.eraseP (fun n => n.mFd == node.mFd) =
        rest
      rw [hNodes]
      exact List.eraseP_cons_of_pos (beq_self_eq_true _)

/- One turn deletes a pending device, and adds none. -/
theorem checkDev_left
    {used : Nat → Bool} {dev d : CardDev}
    (hMem : d ∈ (checkDev used s dev).sDevs) :
    d ∈ s.sDevs ∧ (d = dev → d.devState ≠ .devReqClose) := by
  have hRelease :
      d ∈ (releaseDev s dev).sDevs →
        d ∈ s.sDevs ∧ d.addr ≠ dev.addr := by
    intro hLeft
    have hIn : d ∈ (sNodeDelete s dev).sDevs := by
      unfold releaseDev at hLeft
      cases hFd : dev.fdS with
      | none =>
          rw [hFd] at hLeft
          exact hLeft
      | some fd =>
          rw [hFd] at hLeft
          exact hLeft
    simpa [sNodeDelete] using hIn
  unfold checkDev at hMem
  split at hMem
  · rcases hRelease hMem with ⟨hOld, hOther⟩
    exact ⟨hOld, fun hEq => absurd (hEq ▸ rfl) hOther⟩
  · rename_i hOpen
    refine ⟨?_, fun hEq => hEq ▸ hOpen⟩
    cases hFd : dev.fdS with
    | none =>
        simp only [hFd] at hMem
        exact hMem
    | some fd =>
        simp only [hFd] at hMem
        split at hMem
        · exact (hRelease hMem).1
        · exact hMem

theorem checkDevs_left
    {used : Nat → Bool} {d : CardDev}
    (devs : List CardDev)
    (hMem : d ∈ (devs.foldl (checkDev used) s).sDevs) :
    d ∈ s.sDevs ∧
      (d ∈ devs → d.devState ≠ .devReqClose) := by
  induction devs generalizing s with
  | nil => exact ⟨hMem, nofun⟩
  | cons dev rest ih =>
      rw [List.foldl_cons] at hMem
      rcases ih hMem with ⟨hTurn, hRest⟩
      rcases checkDev_left hTurn with ⟨hOld, hDev⟩
      refine ⟨hOld, fun hIn => ?_⟩
      rcases List.mem_cons.mp hIn with hEq | hLater
      · exact hDev hEq
      · exact hRest hLater

/- No pending device is left for one card. -/
theorem shealthCheck_pending
    {used : Nat → Bool} {d : CardDev}
    (hMem : d ∈ (shealthCheck s used).sDevs) :
    d ∈ s.sDevs ∧ d.devState ≠ .devReqClose := by
  rcases checkDevs_left s.sDevs hMem with ⟨hOld, hPending⟩
  exact ⟨hOld, hPending hOld⟩

/- The check for one card keeps to its list. -/
theorem checkDev_multi
    (used : Nat → Bool)
    (s : Library)
    (dev : CardDev) :
    (checkDev used s dev).mDevs = s.mDevs ∧
      (checkDev used s dev).fdMList = s.fdMList := by
  have hRelease :
      (releaseDev s dev).mDevs = s.mDevs ∧
        (releaseDev s dev).fdMList = s.fdMList := by
    unfold releaseDev
    cases dev.fdS with
    | none => exact ⟨rfl, rfl⟩
    | some fd => exact ⟨rfl, rfl⟩
  unfold checkDev
  split
  · exact hRelease
  · cases dev.fdS with
    | none => exact ⟨rfl, rfl⟩
    | some fd =>
        simp only
        split
        · exact hRelease
        · exact ⟨rfl, rfl⟩

theorem shealthCheck_multi
    (s : Library)
    (used : Nat → Bool) :
    (shealthCheck s used).mDevs = s.mDevs ∧
      (shealthCheck s used).fdMList = s.fdMList := by
  unfold shealthCheck
  generalize s.sDevs = devs
  induction devs generalizing s with
  | nil => exact ⟨rfl, rfl⟩
  | cons dev rest ih =>
      rw [List.foldl_cons]
      have hTurn := checkDev_multi used s dev
      have hRest := ih (checkDev used s dev)
      exact ⟨hRest.1.trans hTurn.1, hRest.2.trans hTurn.2⟩

/- Which of the two checks is made. -/
theorem fixupFdLists_cases
    {check : HealthCheck}
    (hFixup : fixupFdLists s check = some s') :
    (s.mDevs ≠ [] ∧
      ∃ s₁, inotifyHandle s check.reopen = some s₁ ∧
        s' = checkMulti s₁ check.used) ∨
    (s.mDevs = [] ∧ check.reopen = none ∧
      s' = shealthCheck s check.used) := by
  unfold fixupFdLists at hFixup
  split at hFixup
  · rename_i hSome
    rcases Option.map_eq_some_iff.mp hFixup with
      ⟨s₁, hHandle, rfl⟩
    exact Or.inl ⟨hSome, s₁, hHandle, rfl⟩
  · rename_i hNone
    split at hFixup
    · cases hFixup
    · rename_i hReopen
      cases hFixup
      exact Or.inr ⟨not_not.mp hNone, not_not.mp hReopen, rfl⟩

/-
  A check leaves no request unless there are devices for all
  cards and a request is for one of the others.
-/
theorem nonePending_iff
    {check : HealthCheck}
    (hFixup : fixupFdLists s check = some s') :
    NonePending s' ↔
      s.mDevs = [] ∨
        ∀ d ∈ s.sDevs, d.devState ≠ .devReqClose := by
  rcases fixupFdLists_cases hFixup with
    ⟨hSome, s₁, hHandle, rfl⟩ | ⟨hNone, -, rfl⟩
  · have hS : (checkMulti s₁ check.used).sDevs = s.sDevs :=
      (checkMulti_work s₁ check.used).sDevs.trans
        (inotifyHandle_work hHandle).sDevs
    constructor
    · intro hAll
      refine Or.inr (fun d hd => hAll d ?_)
      rw [← hS] at hd
      exact List.mem_append_right _ hd
    · rintro (hNone | hAll) d hd
      · exact absurd hNone hSome
      · rcases List.mem_append.mp hd with hMulti | hSingle
        · exact checkMulti_pending hMulti
        · rw [hS] at hSingle
          exact hAll d hSingle
  · refine ⟨fun _ => Or.inl hNone, fun _ d hd => ?_⟩
    rcases List.mem_append.mp hd with hMulti | hSingle
    · rw [(shealthCheck_multi s check.used).1, hNone]
        at hMulti
      exact absurd hMulti List.not_mem_nil
    · exact (shealthCheck_pending hSingle).2

end Checks

------------------------------------------------------------
-- Devices and Nodes
------------------------------------------------------------

/- Without devices for all cards there are no nodes. -/
def Emptied (s : Library) : Prop :=
  s.mDevs = [] → s.fdMList = []

section Emptied

variable {s s' : Library}

theorem Emptied.congr
    (hEmptied : Emptied s)
    (hM : s'.mDevs = [] → s.mDevs = [])
    (hList : s'.fdMList = s.fdMList) :
    Emptied s' := by
  intro hNone
  rw [hList]
  exact hEmptied (hM hNone)

theorem atDev_nil
    {a : Nat} {f : CardDev → CardDev}
    {devs : List CardDev}
    (hNone : atDev a f devs = []) :
    devs = [] :=
  List.map_eq_nil_iff.mp hNone

theorem update_emptied
    (hEmptied : Emptied s)
    (a : Nat)
    (f : CardDev → CardDev) :
    Emptied (s.update a f) :=
  hEmptied.congr atDev_nil rfl

theorem finishOpen_emptied
    (hEmptied : Emptied s)
    (call : OpenCall)
    (dev : Nat)
    (fd : Option Nat) :
    Emptied (finishOpen s call dev fd).2 := by
  unfold finishOpen
  split
  · exact hEmptied.congr atDev_nil rfl
  · exact update_emptied hEmptied dev _

/- An open for all cards leaves a device. -/
theorem mOpenAll_some
    {call : OpenCall} {n : Nat}
    (hAll :
      mOpenAll (s.withMulti call) call.entries =
        some (n, s')) :
    s'.mDevs ≠ [] := by
  intro hNone
  rcases (mOpenAll_work hAll).mDevs with ⟨f, hM⟩
  rw [hM] at hNone
  have hWith := List.map_eq_nil_iff.mp hNone
  unfold Library.withMulti at hWith
  simp only at hWith
  split at hWith
  · simp at hWith
  · have hAdded := atDev_nil hWith
    simp at hAdded

theorem bound_emptied
    (hEmptied : Emptied s)
    (call : OpenCall)
    (dev : Nat) :
    Emptied (s.bound call dev) := by
  unfold Library.bound inotifyCreate
  split
  · exact update_emptied hEmptied dev _
  · split
    · exact update_emptied hEmptied dev _
    · exact hEmptied.congr atDev_nil rfl

theorem opening_emptied
    {call : OpenCall} {r : Option Nat × Int}
    (hEmptied : Emptied s)
    (hOpening : Opening s call r s') :
    Emptied s' := by
  cases hOpening with
  | noMemory _ => exact hEmptied
  | noCards _ hAll =>
      apply update_emptied
      exact fun hNone => absurd hNone (mOpenAll_some hAll)
  | cards _ hAll =>
      apply finishOpen_emptied
      apply bound_emptied
      exact fun hNone => absurd hNone (mOpenAll_some hAll)
  | noCard _ => exact update_emptied hEmptied _ _
  | @card s₁ fd _ hFd =>
      apply finishOpen_emptied
      have hOpen : Emptied s₁ := by
        unfold Library.openFd at hFd
        split at hFd
        · cases hFd
        · cases hFd
          exact hEmptied
      exact (update_emptied hOpen _ _).congr id rfl

theorem checkMulti_emptied
    (s : Library)
    (used : Nat → Bool) :
    Emptied (checkMulti s used) := by
  intro hNone
  rcases (checkMulti_work s used).mDevs with ⟨f, hM⟩
  rw [hM] at hNone
  have hDeleted := List.map_eq_nil_iff.mp hNone
  unfold checkMulti
  simp only
  rw [if_pos hDeleted]
  exact closeNode_all s.fdMList rfl

theorem shealthCheck_emptied
    (hEmptied : Emptied s)
    (used : Nat → Bool) :
    Emptied (shealthCheck s used) := by
  have hMulti := shealthCheck_multi s used
  exact hEmptied.congr (fun h => hMulti.1 ▸ h) hMulti.2

theorem fdGet_emptied
    {dev : Nat} {selected : Option Selected}
    (hEmptied : Emptied s)
    (hGet : fdGet s dev = some (selected, s')) :
    Emptied s' := by
  rcases fdGet_cases hGet with rfl | ⟨node, _, rfl⟩
  · exact hEmptied
  · exact update_emptied hEmptied dev _

theorem emptied_step
    {event : LibEvent}
    (hEmptied : Emptied s)
    (hStep : libStep s event s') :
    Emptied s' := by
  cases libStep_outcome hStep with
  | opened hOpening => exact opening_emptied hEmptied hOpening
  | closed _ _ => exact hEmptied.congr atDev_nil rfl
  | closedFreed _ _ => exact hEmptied
  | executed _ hGet =>
      exact (fdGet_emptied hEmptied hGet).congr id rfl
  | executeFreed _ _ => exact hEmptied
  | done _ _ _ => exact hEmptied
  | ioctlFreed _ _ => exact hEmptied
  | retried _ hGet =>
      exact (fdGet_emptied hEmptied hGet).congr id rfl
  | busy _ => exact hEmptied
  | failed _ => exact hEmptied
  | finished _ => exact hEmptied
  | checkedMulti _ _ => exact checkMulti_emptied _ _
  | checkedSingle _ _ => exact shealthCheck_emptied hEmptied _
  | ignored => exact hEmptied
  | noted _ _ _ => exact hEmptied

theorem libRun_emptied
    {trace : List LibEvent}
    (hRun : LibRun trace s) :
    Emptied s :=
  hRun.preserves Emptied (fun _ => rfl)
    (fun _ _ _ hEmptied hStep => emptied_step hEmptied hStep)

end Emptied

------------------------------------------------------------
-- The Last Check
------------------------------------------------------------

section Exit

variable {n : Nat} {s s' : Library} {check : HealthCheck}

/- All that the last check finds is to be closed. -/
theorem requestAll_states (s : Library) :
    ∀ d ∈ (requestAll s).devs,
      d.devState = .devReqClose := by
  intro d hd
  rcases List.mem_append.mp hd with hMem | hMem
  · rcases List.mem_map.mp hMem with ⟨d', -, rfl⟩
    rfl
  · rcases List.mem_map.mp hMem with ⟨d', -, rfl⟩
    rfl

theorem map_request_addr (devs : List CardDev) :
    (devs.map (fun d =>
      { d with devState := DevState.devReqClose })).map
        CardDev.addr =
      devs.map CardDev.addr := by
  rw [List.map_map]
  rfl

theorem map_request_fdS (devs : List CardDev) :
    (devs.map (fun d =>
      { d with devState := DevState.devReqClose })).filterMap
        CardDev.fdS =
      devs.filterMap CardDev.fdS := by
  rw [List.filterMap_map]
  rfl

theorem requestAll_sound
    (hSound : Sound s) :
    Sound (requestAll s) := by
  have hOwned : (requestAll s).owned = s.owned := by
    unfold Library.owned requestAll
    simp only
    rw [map_request_fdS]
  have hDev : ∀ d ∈ (requestAll s).mDevs ++
      (requestAll s).sDevs,
      ∃ d' ∈ s.mDevs ++ s.sDevs, d.addr = d'.addr := by
    intro d hd
    rw [requestAll, ← List.map_append] at hd
    rcases List.mem_map.mp hd with ⟨d', hd', rfl⟩
    exact ⟨d', hd', rfl⟩
  refine
    { nodes := hSound.nodes
      nodesOld := hSound.nodesOld
      devs := ?_
      devsOld := ?_
      multi := ?_
      single := ?_
      fds := hSound.fds
      ownedNodup := hOwned ▸ hSound.ownedNodup
      ownedOpen := hOwned ▸ hSound.ownedOpen
      cursorIn := ?_
      cursorSet := ?_ }
  · have hDevs := hSound.devs
    rw [List.map_append] at hDevs
    rw [requestAll, List.map_append, map_request_addr,
      map_request_addr]
    exact hDevs
  · intro d hd
    rcases hDev d hd with ⟨d', hd', hAddr⟩
    rw [hAddr]
    exact hSound.devsOld d' hd'
  · intro d hd
    rcases List.mem_map.mp hd with ⟨d', hd', rfl⟩
    exact hSound.multi d' hd'
  · intro d hd
    rcases List.mem_map.mp hd with ⟨d', hd', rfl⟩
    exact hSound.single d' hd'
  · intro d hd
    rcases List.mem_map.mp hd with ⟨d', hd', rfl⟩
    exact hSound.cursorIn d' hd'
  · intro d hd hState
    rcases List.mem_map.mp hd with ⟨d', hd', rfl⟩
    cases hState

/- Stopping the thread leaves the lists alone. -/
theorem inotifyStop_same (s : Library) :
    (inotifyStop s).sDevs = s.sDevs ∧
      (inotifyStop s).mDevs = s.mDevs ∧
      (inotifyStop s).fdMList = s.fdMList ∧
      (inotifyStop s).fds = s.fds ∧
      (inotifyStop s).next = s.next ∧
      (inotifyStop s).ld.fdMCount = s.ld.fdMCount ∧
      (inotifyStop s).ld.fdSCount = s.ld.fdSCount := by
  unfold inotifyStop
  split <;> exact ⟨rfl, rfl, rfl, rfl, rfl, rfl, rfl⟩

/- What the last check starts from. -/
theorem stopped_sound
    (hSound : Sound s) :
    Sound (inotifyStop (requestAll s)) := by
  rcases inotifyStop_same (requestAll s) with
    ⟨hS, hM, hList, hFds, hNext, -, -⟩
  exact (requestAll_sound hSound).congr hS hM hList hFds
    hNext

theorem stopped_tally
    (hTally : Tally n s) :
    Tally n (inotifyStop (requestAll s)) := by
  rcases inotifyStop_same (requestAll s) with
    ⟨hS, -, hList, hFds, -, hCountM, hCountS⟩
  have hAsked : Tally n (requestAll s) :=
    hTally.congr (map_request_fdS s.sDevs) rfl rfl rfl rfl
  exact hAsked.congr (by rw [hS]) hList hFds hCountM hCountS

theorem fixup_tally
    (hSound : Sound s)
    (hTally : Tally n s)
    (hFixup : fixupFdLists s check = some s') :
    Tally (n + check.lost) s' := by
  rcases fixupFdLists_cases hFixup with
    ⟨-, s₁, hHandle, rfl⟩ | ⟨-, hReopen, rfl⟩
  · exact checkMulti_tally (inotifyHandle_sound hHandle hSound)
      (inotifyHandle_tally hTally hHandle) check.used
  · have hNone : check.lost = 0 := by
      simp [HealthCheck.lost, hReopen]
    rw [hNone]
    exact shealthCheck_tally hSound hTally check.used

/- No check works on what it has released. -/
theorem strictFixup_eq
    (hSound : Sound s)
    (check : HealthCheck) :
    strictFixup s check = fixupFdLists s check := by
  unfold strictFixup fixupFdLists mhealthCheck
  split
  · cases hHandle : inotifyHandle s check.reopen with
    | none => rfl
    | some s₁ =>
        exact strictMulti_eq
          (inotifyHandle_sound hHandle hSound) check.used
  · split
    · rfl
    · exact strictSingle_eq hSound check.used

/- Empty lists and nothing lost leave all closed. -/
theorem closed_of_empty
    {trace : List LibEvent}
    (hSound : Sound s)
    (hExit : libcardExit s check = some s')
    (hTally : Tally 0 s')
    (hS : s'.sDevs = [])
    (hM : s'.mDevs = [])
    (hList : s'.fdMList = []) :
    Closed trace s check s' := by
  have hOwned : s'.owned = [] := by
    rw [Library.owned, hS, hList]
    rfl
  refine ⟨hS, hM, hList, ?_, ?_, ?_, ?_, ?_⟩
  · rw [hTally.fdS, hS]
    rfl
  · rw [hTally.fdM, hList]
    rfl
  · apply List.eq_nil_of_length_eq_zero
    rw [hTally.fds, hOwned]
    rfl
  · intro _ check' _ s₁ _ hPast
    exact strictFixup_eq (libRun_sound hPast) check'
  · rw [strictFixup_eq (stopped_sound hSound)]
    exact hExit

/- Where all are empty nothing open is lost. -/
theorem Tally.lost_none
    (hTally : Tally n s)
    (hFds : s.fds = []) :
    n = 0 := by
  have hLen := hTally.fds
  rw [hFds, List.length_nil] at hLen
  omega

/-
  The last check empties both lists if one of them was empty,
  and the list of nodes with them.
-/
theorem exit_empty
    (hEmptied : Emptied s)
    (hOne : s.mDevs = [] ∨ s.sDevs = [])
    (hExit : libcardExit s check = some s') :
    s'.sDevs = [] ∧ s'.mDevs = [] ∧ s'.fdMList = [] := by
  rcases inotifyStop_same (requestAll s) with
    ⟨hS, hM, hList, -, -, -, -⟩
  have hAsked : ∀ d ∈ (inotifyStop (requestAll s)).devs,
      d.devState = .devReqClose := by
    intro d hd
    rw [Library.devs, hS, hM] at hd
    exact requestAll_states s d hd
  have hMulti :
      (inotifyStop (requestAll s)).mDevs = [] ↔
        s.mDevs = [] := by
    rw [hM]
    exact List.map_eq_nil_iff
  have hSingle :
      (inotifyStop (requestAll s)).sDevs = [] ↔
        s.sDevs = [] := by
    rw [hS]
    exact List.map_eq_nil_iff
  rcases fixupFdLists_cases hExit with
    ⟨hSome, s₁, hHandle, rfl⟩ | ⟨hNone, -, rfl⟩
  · have hWork := inotifyHandle_work hHandle
    have hCheck := checkMulti_work s₁ check.used
    have hNoMulti : (checkMulti s₁ check.used).mDevs = [] := by
      apply List.eq_nil_iff_forall_not_mem.mpr
      intro d hd
      have hState := checkMulti_pending hd
      rcases hCheck.mDevs with ⟨f, hF⟩
      rcases hWork.mDevs with ⟨g, hG⟩
      rw [hF] at hd
      rcases List.mem_map.mp hd with ⟨d₁, hd₁, rfl⟩
      have hOld := (mem_deletePending.mp hd₁).1
      rw [hG] at hOld
      rcases List.mem_map.mp hOld with ⟨d₂, hd₂, rfl⟩
      exact hState
        (hAsked d₂ (List.mem_append_left _ hd₂))
    refine ⟨?_, hNoMulti, checkMulti_emptied _ _ hNoMulti⟩
    rw [hCheck.sDevs, hWork.sDevs]
    apply hSingle.mpr
    exact hOne.resolve_left (fun h => hSome (hMulti.mpr h))
  · have hKept :=
      shealthCheck_multi (inotifyStop (requestAll s))
        check.used
    refine ⟨?_, hKept.1.trans hNone, ?_⟩
    · apply List.eq_nil_iff_forall_not_mem.mpr
      intro d hd
      rcases shealthCheck_pending hd with ⟨hOld, hState⟩
      exact hState
        (hAsked d (List.mem_append_right _ hOld))
    · rw [hKept.2, hList]
      exact hEmptied (hMulti.mp hNone)

/- It leaves the devices for one card if there are others. -/
theorem exit_one
    (hExit : libcardExit s check = some s')
    (hS : s'.sDevs = []) :
    s.mDevs = [] ∨ s.sDevs = [] := by
  rcases inotifyStop_same (requestAll s) with
    ⟨hSame, hM, -, -, -, -, -⟩
  rcases fixupFdLists_cases hExit with
    ⟨-, s₁, hHandle, rfl⟩ | ⟨hNone, -, -⟩
  · right
    rw [(checkMulti_work s₁ check.used).sDevs,
      (inotifyHandle_work hHandle).sDevs, hSame] at hS
    exact List.map_eq_nil_iff.mp hS
  · left
    rw [hM] at hNone
    exact List.map_eq_nil_iff.mp hNone

end Exit

------------------------------------------------------------
-- Requested Closes
------------------------------------------------------------

/-
  A check leaves no request, and the end of the library
  nothing open, if and only if there are devices of one kind
  only and every card that was opened got its node.
-/
theorem closes_iff
    {trace : List LibEvent}
    {check₁ check₂ : HealthCheck}
    {s s₁ s₂ : Library}
    (hRun : LibRun trace s)
    (hFixup : fixupFdLists s check₁ = some s₁)
    (hExit : libcardExit s check₂ = some s₂) :
    NonePending s₁ ∧ Closed trace s check₂ s₂ ↔
      (s.mDevs = [] ∨ s.sDevs = []) ∧
        lostNodes trace = 0 ∧ check₂.lost = 0 := by
  have hSound := libRun_sound hRun
  have hTally : Tally (lostNodes trace + check₂.lost) s₂ :=
    fixup_tally (stopped_sound hSound)
      (stopped_tally (tally_run hRun)) hExit
  constructor
  · rintro ⟨-, hClosed⟩
    have hNone := hTally.lost_none hClosed.fds
    exact ⟨exit_one hExit hClosed.sDevs, by omega, by omega⟩
  · rintro ⟨hOne, hTrace, hLast⟩
    rw [hTrace, hLast] at hTally
    rcases exit_empty (libRun_emptied hRun) hOne hExit with
      ⟨hS, hM, hList⟩
    refine ⟨(nonePending_iff hFixup).mpr ?_,
      closed_of_empty hSound hExit hTally hS hM hList⟩
    rcases hOne with hNone | hNone
    · exact Or.inl hNone
    · right
      intro d hd
      rw [hNone] at hd
      exact absurd hd List.not_mem_nil

/- A check that finds all cards in use. -/
def allUsed : HealthCheck :=
  { reopen := none, used := fun _ => true }

/- One card is opened and the library ends. -/
theorem closes_single :
    NonePending singleCard ∧
      ∃ s₂, libcardExit singleCard allUsed = some s₂ ∧
        Closed ([] ++ [Library.init.event openSingle])
          singleCard allUsed s₂ := by
  have hOpened := LibRun.act Run.start openSingle rfl
  have hBoth :=
    (@closes_iff _ allUsed allUsed singleCard _ _ hOpened rfl
      rfl).mpr ⟨Or.inl rfl, rfl, rfl⟩
  exact ⟨hBoth.1, _, rfl, hBoth.2⟩

/- Both kinds of devices are open when the library ends. -/
def bothKinds : Library := twoCards.after (
  .open (openWith 2 [] (some 5)))

theorem closes_fails :
    ¬∀ trace s check₁ s₁ check₂ s₂,
      LibRun trace s →
        fixupFdLists s check₁ = some s₁ →
          libcardExit s check₂ = some s₂ →
            NonePending s₁ ∧ Closed trace s check₂ s₂ := by
  intro hAll
  have hRun := LibRun.act twoCards_run
    (.open (openWith 2 [] (some 5))) rfl
  have hClosed :=
    (hAll _ bothKinds allUsed _ allUsed _ hRun rfl rfl).2
  have hS := hClosed.sDevs
  cases hS

end Libcard
