import GenWqe.Card.Sound

/-
  What the calls of applications and the threads of the card
  library can do, and that each step keeps the invariant.

  Key definitions include:
    * `Opening`
    * `LibOutcome`

  Main results:
    * `checkMulti_keeps` and `shealthCheck_keeps`
    * `cardOpen_cases`
    * `libStep_outcome`
    * `libStep_sound` and `libRun_sound`
-/

namespace Libcard

------------------------------------------------------------
-- Health Checks
------------------------------------------------------------

section Checks

variable {s : Library}

theorem mem_deletePending
    {devs : List CardDev} {dev : CardDev} :
    dev ∈ deletePending devs ↔
      dev ∈ devs ∧ dev.devState ≠ .devReqClose := by
  simp [deletePending]

theorem pending_sound
    (hSound : Sound s) :
    Sound { s with mDevs := deletePending s.mDevs } := by
  have hSub :
      List.Sublist
        (deletePending s.mDevs ++ s.sDevs)
        (s.mDevs ++ s.sDevs) :=
    List.filter_sublist.append_right _
  exact
    { nodes := hSound.nodes
      nodesOld := hSound.nodesOld
      devs := hSound.devs.sublist (hSub.map _)
      devsOld := fun dev hMem =>
        hSound.devsOld dev (hSub.subset hMem)
      multi := fun dev hMem =>
        hSound.multi dev (mem_deletePending.mp hMem).1
      single := hSound.single
      fds := hSound.fds
      ownedNodup := hSound.ownedNodup
      ownedOpen := hSound.ownedOpen
      cursorIn := fun dev hMem =>
        hSound.cursorIn dev (mem_deletePending.mp hMem).1
      cursorSet := fun dev hMem =>
        hSound.cursorSet dev (mem_deletePending.mp hMem).1 }

/-
  What deleting the pending devices and the turns of both
  loops keep, the check of the cards of all devices keeps.
-/
theorem checkMulti_keeps
    (P : Library → Prop)
    (used : Nat → Bool)
    (hSound : Sound s)
    (hClose :
      ∀ s node,
        Sound s → s.mDevs = [] → P s → node ∈ s.fdMList →
          P (closeNode s node))
    (hCheck :
      ∀ s node,
        Sound s → P s → node ∈ s.fdMList →
          P (checkNode used s node))
    (hPending :
      P { s with mDevs := deletePending s.mDevs }) :
    Sound (checkMulti s used) ∧ P (checkMulti s used) := by
  have hSound' := pending_sound hSound
  unfold checkMulti
  simp only
  split
  · rename_i hNone
    have hAll := nodes_keep
      (s := { s with mDevs := deletePending s.mDevs })
      (fun s => Sound s ∧ s.mDevs = [] ∧ P s) closeNode
      (fun s node h hMem =>
        ⟨closeNode_sound h.1 h.2.1 hMem, h.2.1,
          hClose s node h.1 h.2.1 h.2.2 hMem⟩)
      (fun s node node' h hMem hMem' hOther =>
        eraseP_others h.1 hMem hMem' hOther)
      s.fdMList hSound.nodes (fun _ hMem => hMem)
      ⟨hSound', hNone, hPending⟩
    exact ⟨hAll.1, hAll.2.2⟩
  · exact nodes_keep
      (fun s => Sound s ∧ P s) (checkNode used)
      (fun s node h hMem =>
        ⟨checkNode_sound h.1 used hMem,
          hCheck s node h.1 h.2 hMem⟩)
      (fun s node node' h hMem hMem' hOther =>
        checkNode_others h.1 used hMem hMem' hOther)
      s.fdMList hSound.nodes (fun _ hMem => hMem)
      ⟨hSound', hPending⟩

theorem checkMulti_sound
    (hSound : Sound s)
    (used : Nat → Bool) :
    Sound (checkMulti s used) :=
  (checkMulti_keeps (fun _ => True) used hSound
    (fun _ _ _ _ _ _ => trivial) (fun _ _ _ _ _ => trivial)
    trivial).1

/- The devices left when one of them is deleted. -/
theorem delete_perm
    (hSound : Sound s)
    {dev : CardDev}
    (hMem : dev ∈ s.sDevs) :
    s.sDevs.Perm (dev :: (sNodeDelete s dev).sDevs) := by
  have hFilter :
      (sNodeDelete s dev).sDevs = s.sDevs.erase dev := by
    have hNodup := hSound.sDevs_nodup.of_map
    rw [hNodup.erase_eq_filter]
    refine List.filter_congr (fun d hd => ?_)
    by_cases hSame : d = dev
    · simp [hSame]
    · have hAddr : d.addr ≠ dev.addr := fun h =>
        hSame (eq_of_key hSound.sDevs_nodup hd hMem h)
      simp [hSame, hAddr]
  rw [hFilter]
  exact List.perm_cons_erase hMem

/- What is owned by a device that is deleted, and the rest. -/
theorem release_perm
    (hSound : Sound s)
    {dev : CardDev}
    (hMem : dev ∈ s.sDevs) :
    s.owned.Perm
      (dev.fdS.toList ++ (sNodeDelete s dev).owned) := by
  have hFds :=
    (delete_perm hSound hMem).filterMap CardDev.fdS
  have hCons :
      (dev :: (sNodeDelete s dev).sDevs).filterMap
          CardDev.fdS =
        dev.fdS.toList ++
          (sNodeDelete s dev).sDevs.filterMap
            CardDev.fdS := by
    cases hFd : dev.fdS with
    | none => simp [hFd]
    | some fd => simp [hFd]
  rw [hCons] at hFds
  refine (hFds.append_left _).trans ?_
  exact List.perm_append_comm_assoc _ _ _

/- A device is deleted and its descriptor closed. -/
theorem releaseDev_sound
    (hSound : Sound s)
    {dev : CardDev}
    (hMem : dev ∈ s.sDevs) :
    Sound (releaseDev s dev) := by
  have hSub :
      List.Sublist (sNodeDelete s dev).sDevs s.sDevs :=
    List.filter_sublist
  have hDevs := hSub.append_left s.mDevs
  have hBoth := release_perm hSound hMem
  have hNodup := (hBoth.nodup_iff).mp hSound.ownedNodup
  have hRest : ∀ s' : Library,
      s'.sDevs = (sNodeDelete s dev).sDevs →
      s'.mDevs = s.mDevs → s'.fdMList = s.fdMList →
      s'.next = s.next →
      s'.fds.Nodup →
      (∀ fd ∈ (sNodeDelete s dev).owned, fd ∈ s'.fds) →
      Sound s' := by
    intro s' hS hM hL hN hFds hOpen
    have hOwned : s'.owned = (sNodeDelete s dev).owned := by
      unfold Library.owned
      rw [hL, hS]
      rfl
    refine
      { nodes := hL ▸ hSound.nodes
        nodesOld := by
          rw [hL, hN]
          exact hSound.nodesOld
        devs := by
          rw [hM, hS]
          exact hSound.devs.sublist (hDevs.map _)
        devsOld := fun d hd => ?_
        multi := hM ▸ hSound.multi
        single := fun d hd => ?_
        fds := hFds
        ownedNodup := by
          rw [hOwned]
          exact (List.nodup_append.mp hNodup).2.1
        ownedOpen := by
          rw [hOwned]
          exact hOpen
        cursorIn := by
          rw [hM, hL]
          exact hSound.cursorIn
        cursorSet := by
          rw [hM, hL]
          exact hSound.cursorSet }
    · rw [hM, hS] at hd
      rw [hN]
      exact hSound.devsOld d (hDevs.subset hd)
    · rw [hS] at hd
      exact hSound.single d (hSub.subset hd)
  unfold releaseDev
  cases hFd : dev.fdS with
  | none =>
      exact hRest _ rfl rfl rfl rfl hSound.fds
        (fun fd hOld => hSound.ownedOpen fd
          (hBoth.mem_iff.mpr (List.mem_append_right _ hOld)))
  | some fd =>
      refine hRest _ rfl rfl rfl rfl (hSound.fds.erase fd) ?_
      intro fd' hOld
      have hNe : fd' ≠ fd := by
        rintro rfl
        rw [hFd] at hNodup
        exact (List.nodup_cons.mp hNodup).1 hOld
      exact (List.mem_erase_of_ne hNe).mpr
        (hSound.ownedOpen fd'
          (hBoth.mem_iff.mpr (List.mem_append_right _ hOld)))

/- The devices that a turn of the single check leaves. -/
theorem checkDev_others
    (used : Nat → Bool)
    {dev d : CardDev}
    (hMem : d ∈ s.sDevs)
    (hOther : d.addr ≠ dev.addr) :
    d ∈ (checkDev used s dev).sDevs := by
  have hRelease : d ∈ (releaseDev s dev).sDevs := by
    have hLeft : d ∈ (sNodeDelete s dev).sDevs := by
      simp [sNodeDelete, hMem, hOther]
    unfold releaseDev
    cases dev.fdS with
    | none => exact hLeft
    | some fd => exact hLeft
  unfold checkDev
  split
  · exact hRelease
  · cases dev.fdS with
    | none => exact hMem
    | some fd =>
        simp only
        split
        · exact hRelease
        · exact hMem

theorem checkDev_sound
    (hSound : Sound s)
    (used : Nat → Bool)
    {dev : CardDev}
    (hMem : dev ∈ s.sDevs) :
    Sound (checkDev used s dev) := by
  unfold checkDev
  split
  · exact releaseDev_sound hSound hMem
  · cases dev.fdS with
    | none => exact hSound
    | some fd =>
        simp only
        split
        · exact releaseDev_sound hSound hMem
        · exact hSound

/- The loop over the devices for one card. -/
theorem devs_keep
    (P : Library → Prop)
    (used : Nat → Bool)
    (devs : List CardDev)
    (hNodup : (devs.map CardDev.addr).Nodup)
    (hStep :
      ∀ s dev,
        dev ∈ devs → Sound s → P s → dev ∈ s.sDevs →
          P (checkDev used s dev))
    (hIn : ∀ dev ∈ devs, dev ∈ s.sDevs)
    (hSound : Sound s)
    (hP : P s) :
    Sound (devs.foldl (checkDev used) s) ∧
      P (devs.foldl (checkDev used) s) :=
  sweep_keeps (fun s => Sound s ∧ P s) devs
    (fun s dev hd h hMem =>
      ⟨checkDev_sound h.1 used hMem,
        hStep s dev hd h.1 h.2 hMem⟩)
    (fun _ _ _ _ _ hMem hOther =>
      checkDev_others used hMem hOther)
    hNodup hIn ⟨hSound, hP⟩

theorem shealthCheck_keeps
    (P : Library → Prop)
    (used : Nat → Bool)
    (hSound : Sound s)
    (hStep :
      ∀ s' dev,
        dev ∈ s.sDevs → Sound s' → P s' → dev ∈ s'.sDevs →
          P (checkDev used s' dev))
    (hP : P s) :
    Sound (shealthCheck s used) ∧ P (shealthCheck s used) :=
  devs_keep P used s.sDevs hSound.sDevs_nodup hStep
    (fun _ hMem => hMem) hSound hP

end Checks

------------------------------------------------------------
-- Devices
------------------------------------------------------------

section Devices

variable {s s' : Library}

theorem mem_atDev
    {dev : Nat} {f : CardDev → CardDev}
    {devs : List CardDev} {d : CardDev}
    (hMem : d ∈ atDev dev f devs) :
    ∃ d' ∈ devs,
      (d'.addr = dev ∧ d = f d') ∨
        (d'.addr ≠ dev ∧ d = d') := by
  rcases List.mem_map.mp hMem with ⟨d', hd', rfl⟩
  refine ⟨d', hd', ?_⟩
  by_cases hAddr : d'.addr = dev
  · exact Or.inl ⟨hAddr, by rw [if_pos hAddr]⟩
  · exact Or.inr ⟨hAddr, by rw [if_neg hAddr]⟩

theorem atDev_addr
    {dev : Nat} {f : CardDev → CardDev}
    (hAddr : ∀ d, (f d).addr = d.addr)
    (devs : List CardDev) :
    (atDev dev f devs).map CardDev.addr =
      devs.map CardDev.addr := by
  unfold atDev
  rw [List.map_map]
  refine List.map_congr_left (fun d _ => ?_)
  by_cases hd : d.addr = dev
  · simp [hd, hAddr]
  · simp [hd]

theorem atDev_fdS
    {dev : Nat} {f : CardDev → CardDev}
    {devs : List CardDev}
    (hFd : ∀ d ∈ devs, d.addr = dev → (f d).fdS = d.fdS) :
    (atDev dev f devs).filterMap CardDev.fdS =
      devs.filterMap CardDev.fdS := by
  unfold atDev
  rw [List.filterMap_map]
  refine List.filterMap_congr (fun d hd => ?_)
  by_cases hAddr : d.addr = dev
  · simp [hAddr, hFd d hd hAddr]
  · simp [hAddr]

/- A device changes other than in what it owns. -/
theorem update_sound
    (hSound : Sound s)
    (dev : Nat)
    (f : CardDev → CardDev)
    (hAddr : ∀ d, (f d).addr = d.addr)
    (hNo : ∀ d, (f d).cardNo = d.cardNo)
    (hFd : ∀ d ∈ s.sDevs, d.addr = dev → (f d).fdS = d.fdS)
    (hIn :
      ∀ d ∈ s.mDevs, d.addr = dev →
        CursorIn s.fdMList (f d))
    (hSet :
      ∀ d ∈ s.mDevs, d.addr = dev →
        CursorSet s.fdMList (f d)) :
    Sound (s.update dev f) := by
  have hOwned : (s.update dev f).owned = s.owned := by
    change _ ++ (atDev dev f s.sDevs).filterMap _ = _
    rw [atDev_fdS hFd]
    rfl
  refine
    { nodes := hSound.nodes
      nodesOld := hSound.nodesOld
      devs := ?_
      devsOld := fun d hd => ?_
      multi := fun d hd => ?_
      single := fun d hd => ?_
      fds := hSound.fds
      ownedNodup := hOwned ▸ hSound.ownedNodup
      ownedOpen := by
        rw [hOwned]
        exact hSound.ownedOpen
      cursorIn := fun d hd => ?_
      cursorSet := fun d hd => ?_ }
  · change ((atDev dev f s.mDevs ++
      atDev dev f s.sDevs).map CardDev.addr).Nodup
    rw [List.map_append, atDev_addr hAddr, atDev_addr hAddr,
      ← List.map_append]
    exact hSound.devs
  · rcases List.mem_append.mp hd with hM | hS
    · rcases mem_atDev hM with ⟨d', hd', ⟨-, rfl⟩ | ⟨-, rfl⟩⟩
      · rw [hAddr]
        exact hSound.devsOld d' (List.mem_append_left _ hd')
      · exact hSound.devsOld _ (List.mem_append_left _ hd')
    · rcases mem_atDev hS with ⟨d', hd', ⟨-, rfl⟩ | ⟨-, rfl⟩⟩
      · rw [hAddr]
        exact hSound.devsOld d' (List.mem_append_right _ hd')
      · exact hSound.devsOld _ (List.mem_append_right _ hd')
  · rcases mem_atDev hd with ⟨d', hd', ⟨-, rfl⟩ | ⟨-, rfl⟩⟩
    · rw [hNo]
      exact hSound.multi d' hd'
    · exact hSound.multi _ hd'
  · rcases mem_atDev hd with ⟨d', hd', ⟨-, rfl⟩ | ⟨-, rfl⟩⟩
    · rw [hNo]
      exact hSound.single d' hd'
    · exact hSound.single _ hd'
  · rcases mem_atDev hd with
      ⟨d', hd', ⟨hHere, rfl⟩ | ⟨-, rfl⟩⟩
    · exact hIn d' hd' hHere
    · exact hSound.cursorIn _ hd'
  · rcases mem_atDev hd with
      ⟨d', hd', ⟨hHere, rfl⟩ | ⟨-, rfl⟩⟩
    · exact hSet d' hd' hHere
    · exact hSound.cursorSet _ hd'

/- `genwqe_card_close` only changes the state. -/
theorem cardClose_sound
    (hSound : Sound s)
    (dev : Nat) :
    Sound (cardClose s dev) :=
  update_sound hSound dev _ (fun _ => rfl) (fun _ => rfl)
    (fun _ _ _ => rfl)
    (fun d hd _ => hSound.cursorIn d hd)
    (fun _ _ _ hState => (nomatch hState))

/- A device moves its cursor to a node of the list. -/
theorem cursor_sound
    (hSound : Sound s)
    (dev : Nat)
    {node : FdNode}
    (hMem : node ∈ s.fdMList) :
    Sound (s.update dev (fun d =>
      { d with mFdPtr := some node.addr })) := by
  refine update_sound hSound dev _ (fun _ => rfl)
    (fun _ => rfl) (fun _ _ _ => rfl) (fun _ _ _ => ?_)
    (fun _ _ _ _ hPtr => (nomatch hPtr))
  intro ptr hPtr
  cases hPtr
  exact ⟨node, hMem, rfl⟩

/- Getting a descriptor moves a cursor at most. -/
theorem fdGet_cases
    {dev : Nat} {selected : Option Selected}
    (hGet : fdGet s dev = some (selected, s')) :
    s' = s ∨
      ∃ node ∈ s.fdMList,
        s' = s.update dev (fun d =>
          { d with mFdPtr := some node.addr }) := by
  unfold fdGet at hGet
  cases hDev : s.dev? dev with
  | none => simp [hDev] at hGet
  | some d =>
      have hAddr := (dev_mem hDev).2
      simp only [hDev] at hGet
      split at hGet
      · unfold fdMGetAndInc at hGet
        cases hPtr : d.mFdPtr with
        | none =>
            simp only [hPtr] at hGet
            cases hGet
            exact Or.inl rfl
        | some ptr =>
            simp only [hPtr] at hGet
            rcases Option.map_eq_some_iff.mp hGet with
              ⟨⟨node, next⟩, hTurn, hEq⟩
            cases hEq
            rcases turn_next hTurn with ⟨node', hMem, rfl⟩
            rw [hAddr]
            exact Or.inr ⟨node', hMem, rfl⟩
      · cases hGet
        exact Or.inl rfl

theorem fdGet_sound
    {dev : Nat} {selected : Option Selected}
    (hSound : Sound s)
    (hGet : fdGet s dev = some (selected, s')) :
    Sound s' := by
  rcases fdGet_cases hGet with rfl | ⟨node, hMem, rfl⟩
  · exact hSound
  · exact cursor_sound hSound dev hMem

end Devices

------------------------------------------------------------
-- Opening
------------------------------------------------------------

/- A device is added for all cards, and the mode settled. -/
def Library.withMulti
    (s : Library)
    (call : OpenCall) : Library :=
  let s' :=
    { s with
      mDevs := s.mDevs ++ [call.dev s.next]
      next := s.next + 1 }
  if s.ld.mModeSave = -1 then
    { s' with ld := { s.ld with mModeSave := call.mode } }
  else
    s'.update s.next (fun d =>
      { d with mode := s.ld.mModeSave })

/- A device is added for one card. -/
def Library.withSingle
    (s : Library)
    (call : OpenCall) : Library :=
  { s with
    sDevs := s.sDevs ++ [call.dev s.next]
    next := s.next + 1 }

/- The device is set to the first card. -/
def Library.bound
    (s : Library)
    (call : OpenCall)
    (dev : Nat) : Library :=
  inotifyCreate
    (s.update dev (fun d =>
      { d with
        mFdPtr := s.fdMHead
        fdS := s.fdMList.head?.map FdNode.mFd
        appId := call.readAppId }))
    call.watch

/-
  What `genwqe_card_open` can do: without memory nothing,
  else it adds a device, which it hands out if there are
  cards and the application is right.
-/
inductive Opening
    (s : Library)
    (call : OpenCall) : (Option Nat × Int) → Library → Prop
  | noMemory
      (hAlloc : call.alloc = false) :
      Opening s call (none, genwqeErrno) s
  | noCards
      {s₁ : Library}
      (hNo : call.cardNo = genwqeCardRedundant)
      (hAll :
        mOpenAll (s.withMulti call) call.entries =
          some (0, s₁))
      (hAlloc : call.alloc = true) :
      Opening s call (none, genwqeErrOpen)
        (cardClose s₁ s.next)
  | cards
      {s₁ : Library} {n : Nat}
      (hNo : call.cardNo = genwqeCardRedundant)
      (hAll :
        mOpenAll (s.withMulti call) call.entries =
          some (n + 1, s₁))
      (hAlloc : call.alloc = true) :
      Opening s call
        (finishOpen (s₁.bound call s.next) call s.next
          (s₁.fdMList.head?.map FdNode.mFd)).1
        (finishOpen (s₁.bound call s.next) call s.next
          (s₁.fdMList.head?.map FdNode.mFd)).2
  | noCard
      (hNo : call.cardNo ≠ genwqeCardRedundant)
      (hAlloc : call.alloc = true) :
      Opening s call (none, genwqeErrOpen)
        (cardClose (s.withSingle call) s.next)
  | card
      {s₁ : Library} {fd : Nat}
      (hNo : call.cardNo ≠ genwqeCardRedundant)
      (hFd : (s.withSingle call).openFd fd = some s₁)
      (hAlloc : call.alloc = true) :
      Opening s call
        (finishOpen
          ((s₁.update s.next (fun d =>
            { d with
              fdS := some fd
              appId := call.readAppId })).countFdS 1)
          call s.next (some fd)).1
        (finishOpen
          ((s₁.update s.next (fun d =>
            { d with
              fdS := some fd
              appId := call.readAppId })).countFdS 1)
          call s.next (some fd)).2

theorem finishOpen_none
    (s : Library)
    (call : OpenCall)
    (dev : Nat) :
    finishOpen s call dev none =
      ((none, genwqeErrOpen), cardClose s dev) := by
  simp [finishOpen]

theorem cardOpen_cases
    {s s' : Library} {call : OpenCall}
    {r : Option Nat × Int}
    (hOpen : cardOpen s call = some (r, s')) :
    Opening s call r s' := by
  unfold cardOpen at hOpen
  simp only at hOpen
  by_cases hAlloc : call.alloc = false
  · rw [if_pos hAlloc] at hOpen
    cases hOpen
    exact .noMemory hAlloc
  rw [if_neg hAlloc] at hOpen
  replace hAlloc : call.alloc = true := by
    simpa using hAlloc
  by_cases hNo : call.cardNo = genwqeCardRedundant
  · rw [if_pos hNo] at hOpen
    rcases Option.map_eq_some_iff.mp hOpen with
      ⟨⟨fd, s₂⟩, hOpenAll, hEq⟩
    rcases Option.map_eq_some_iff.mp hOpenAll with
      ⟨⟨n, s₁⟩, hAll, hFound⟩
    cases n with
    | zero =>
        simp only [if_true] at hFound
        cases hFound
        simp only [finishOpen_none] at hEq
        cases hEq
        exact .noCards hNo hAll hAlloc
    | succ n =>
        simp only [Nat.succ_ne_zero, if_false] at hFound
        cases hFound
        have hAll' :
            mOpenAll (s.withMulti call) call.entries =
              some (n + 1, s₁) := hAll
        have hOpening := Opening.cards hNo hAll' hAlloc
        simp only at hEq
        have hFirst := congrArg Prod.fst hEq
        have hLast := congrArg Prod.snd hEq
        simp only at hFirst hLast
        rw [← hFirst, ← hLast]
        exact hOpening
  · rw [if_neg hNo] at hOpen
    rcases Option.map_eq_some_iff.mp hOpen with
      ⟨⟨fd, s₂⟩, hOpenOne, hEq⟩
    unfold openOne at hOpenOne
    cases hDevOpen : call.devOpen with
    | none =>
        simp only [hDevOpen] at hOpenOne
        cases hOpenOne
        simp only [finishOpen_none] at hEq
        cases hEq
        exact .noCard hNo hAlloc
    | some fd' =>
        simp only [hDevOpen] at hOpenOne
        rcases Option.map_eq_some_iff.mp hOpenOne with
          ⟨s₁, hFd, hFound⟩
        cases hFound
        have hFd' :
            (s.withSingle call).openFd fd' = some s₁ := hFd
        have hOpening := Opening.card hNo hFd' hAlloc
        have hFirst := congrArg Prod.fst hEq
        have hLast := congrArg Prod.snd hEq
        simp only at hFirst hLast
        rw [← hFirst, ← hLast]
        exact hOpening

section OpeningSound

variable {s s' s₁ : Library} {call : OpenCall}

/- A device that is not in use yet is added. -/
theorem withMulti_sound
    (hSound : Sound s)
    (hNo : call.cardNo = genwqeCardRedundant) :
    Sound (s.withMulti call) := by
  have hFresh : ∀ d ∈ s.mDevs ++ s.sDevs,
      d.addr ≠ s.next :=
    fun d hd => (hSound.devsOld d hd).ne
  have hPerm :
      (s.mDevs ++ [call.dev s.next] ++ s.sDevs).Perm
        (call.dev s.next :: (s.mDevs ++ s.sDevs)) := by
    rw [List.append_assoc]
    exact List.perm_middle
  have hAdded : Sound
      { s with
        mDevs := s.mDevs ++ [call.dev s.next]
        next := s.next + 1 } := by
    refine
      { nodes := hSound.nodes
        nodesOld := fun node hMem =>
          (hSound.nodesOld node hMem).trans
            (Nat.lt_succ_self _)
        devs := ?_
        devsOld := fun d hd => ?_
        multi := fun d hd => ?_
        single := hSound.single
        fds := hSound.fds
        ownedNodup := hSound.ownedNodup
        ownedOpen := hSound.ownedOpen
        cursorIn := fun d hd => ?_
        cursorSet := fun d hd => ?_ }
    · rw [(hPerm.map CardDev.addr).nodup_iff, List.map_cons,
        List.nodup_cons]
      refine ⟨fun hMem => ?_, hSound.devs⟩
      rcases List.mem_map.mp hMem with ⟨d, hd, hAddr⟩
      exact hFresh d hd hAddr
    · rcases List.mem_cons.mp (hPerm.mem_iff.mp hd) with
        rfl | hOld
      · exact Nat.lt_succ_self _
      · exact (hSound.devsOld d hOld).trans
          (Nat.lt_succ_self _)
    · rcases List.mem_append.mp hd with hOld | hNew
      · exact hSound.multi d hOld
      · rw [List.mem_singleton.mp hNew]
        exact hNo
    · rcases List.mem_append.mp hd with hOld | hNew
      · exact hSound.cursorIn d hOld
      · rw [List.mem_singleton.mp hNew]
        intro ptr hPtr
        cases hPtr
    · rcases List.mem_append.mp hd with hOld | hNew
      · exact hSound.cursorSet d hOld
      · rw [List.mem_singleton.mp hNew]
        intro hState
        cases hState
  unfold Library.withMulti
  simp only
  split
  · exact hAdded.congr rfl rfl rfl rfl rfl
  · exact update_sound hAdded s.next _ (fun _ => rfl)
      (fun _ => rfl) (fun _ _ _ => rfl)
      (fun d hd _ => hAdded.cursorIn d hd)
      (fun d hd _ => hAdded.cursorSet d hd)

theorem withSingle_sound
    (hSound : Sound s)
    (hNo : call.cardNo ≠ genwqeCardRedundant) :
    Sound (s.withSingle call) := by
  have hFresh : ∀ d ∈ s.mDevs ++ s.sDevs,
      d.addr ≠ s.next :=
    fun d hd => (hSound.devsOld d hd).ne
  have hPerm :
      (s.mDevs ++ (s.sDevs ++ [call.dev s.next])).Perm
        (call.dev s.next :: (s.mDevs ++ s.sDevs)) := by
    rw [← List.append_assoc]
    exact List.perm_append_comm
  have hOwned : (s.withSingle call).owned = s.owned := by
    unfold Library.owned Library.withSingle
    simp [OpenCall.dev]
  refine
    { nodes := hSound.nodes
      nodesOld := fun node hMem =>
        (hSound.nodesOld node hMem).trans
          (Nat.lt_succ_self _)
      devs := ?_
      devsOld := fun d hd => ?_
      multi := hSound.multi
      single := fun d hd => ?_
      fds := hSound.fds
      ownedNodup := hOwned ▸ hSound.ownedNodup
      ownedOpen := by
        rw [hOwned]
        exact hSound.ownedOpen
      cursorIn := hSound.cursorIn
      cursorSet := hSound.cursorSet }
  · change ((s.mDevs ++
      (s.sDevs ++ [call.dev s.next])).map _).Nodup
    rw [(hPerm.map CardDev.addr).nodup_iff, List.map_cons,
      List.nodup_cons]
    refine ⟨fun hMem => ?_, hSound.devs⟩
    rcases List.mem_map.mp hMem with ⟨d, hd, hAddr⟩
    exact hFresh d hd hAddr
  · rcases List.mem_cons.mp (hPerm.mem_iff.mp hd) with
      rfl | hOld
    · exact Nat.lt_succ_self _
    · exact (hSound.devsOld d hOld).trans
        (Nat.lt_succ_self _)
  · rcases List.mem_append.mp hd with hOld | hNew
    · exact hSound.single d hOld
    · rw [List.mem_singleton.mp hNew]
      exact hNo

/- `__inotify_create` works on its own data only. -/
theorem inotifyCreate_sound
    (hSound : Sound s)
    (watch : WatchOpen) :
    Sound (inotifyCreate s watch) := by
  unfold inotifyCreate
  split
  · exact hSound
  split
  · exact hSound
  · exact hSound.congr rfl rfl rfl rfl rfl

/- The new device is bound to the first card. -/
theorem bound_sound
    {dev : Nat}
    (hSound : Sound s)
    (hSingle : ∀ d ∈ s.sDevs, d.addr ≠ dev) :
    Sound (s.bound call dev) := by
  refine inotifyCreate_sound ?_ call.watch
  exact update_sound hSound dev _ (fun _ => rfl)
    (fun _ => rfl)
    (fun d hd hAddr => (hSingle d hd hAddr).elim)
    (fun d _ _ => headAll_cursorIn s d)
    (fun d _ _ => headAll_cursorSet s d)

/- A device is handed out with its cursor set. -/
theorem finishOpen_sound
    {dev : Nat} {fd : Option Nat}
    (hSound : Sound s)
    (hReady :
      fd.isSome →
        ∀ d ∈ s.mDevs, d.addr = dev →
          d.mFdPtr = none → s.fdMList = []) :
    Sound (finishOpen s call dev fd).2 := by
  unfold finishOpen
  split
  · rename_i hGood
    have hUpdated := update_sound hSound dev
      (fun d => { d with devState := .devHaveFd })
      (fun _ => rfl) (fun _ => rfl) (fun _ _ _ => rfl)
      (fun d hd _ => hSound.cursorIn d hd)
      (fun d hd hAddr _ hPtr =>
        hReady hGood.1 d hd hAddr hPtr)
    exact hUpdated.congr rfl rfl rfl rfl rfl
  · exact cardClose_sound hSound dev

/- The descriptor of a new device for one card. -/
theorem openOne_sound
    {fd : Nat}
    (hSound : Sound s)
    (hNo : call.cardNo ≠ genwqeCardRedundant)
    (hFd : (s.withSingle call).openFd fd = some s₁)
    (appId : UInt64) :
    Sound ((s₁.update s.next (fun d =>
      { d with fdS := some fd, appId := appId })).countFdS
        1) := by
  have hSound' : Sound (s.withSingle call) :=
    withSingle_sound hSound hNo
  unfold Library.openFd at hFd
  split at hFd
  · cases hFd
  rename_i hFresh
  cases hFd
  have hNew : fd ∉ s.owned :=
    fun hMem => hFresh (hSound.ownedOpen fd hMem)
  let f : CardDev → CardDev := fun d =>
    { d with fdS := some fd, appId := appId }
  have hOld : ∀ d ∈ s.sDevs, d.addr ≠ s.next :=
    fun d hd =>
      (hSound.devsOld d (List.mem_append_right _ hd)).ne
  have hSame : atDev s.next f s.sDevs = s.sDevs := by
    unfold atDev
    conv_rhs => rw [← List.map_id s.sDevs]
    refine List.map_congr_left (fun d hd => ?_)
    simp [hOld d hd]
  have hDevs :
      atDev s.next f (s.sDevs ++ [call.dev s.next]) =
        s.sDevs ++ [f (call.dev s.next)] := by
    unfold atDev at hSame ⊢
    rw [List.map_append, hSame]
    simp [OpenCall.dev]
  -- the multi devices are not at this address
  have hMulti : atDev s.next f s.mDevs = s.mDevs := by
    unfold atDev
    conv_rhs => rw [← List.map_id s.mDevs]
    refine List.map_congr_left (fun d hd => ?_)
    have hNe := (hSound.devsOld d
      (List.mem_append_left _ hd)).ne
    simp [hNe]
  have hOwned :
      (s.fdMList.map FdNode.mFd ++
          (s.sDevs ++ [f (call.dev s.next)]).filterMap
            CardDev.fdS).Perm (fd :: s.owned) := by
    rw [List.filterMap_append, ← List.append_assoc]
    exact List.perm_append_comm
  have hAddr : ∀ d, (f d).addr = d.addr := fun _ => rfl
  refine
    { nodes := hSound'.nodes
      nodesOld := hSound'.nodesOld
      devs := ?_
      devsOld := fun d hd => ?_
      multi := fun d hd => ?_
      single := fun d hd => ?_
      fds := List.nodup_cons.mpr ⟨hFresh, hSound'.fds⟩
      ownedNodup := ?_
      ownedOpen := fun fd' hMem => ?_
      cursorIn := fun d hd => ?_
      cursorSet := fun d hd => ?_ }
  · change ((atDev s.next f s.mDevs ++ atDev s.next f
      (s.sDevs ++ [call.dev s.next])).map _).Nodup
    rw [List.map_append, atDev_addr hAddr, atDev_addr hAddr,
      ← List.map_append]
    exact hSound'.devs
  · have hIn : d.addr ∈
        (s.mDevs ++ (s.sDevs ++ [call.dev s.next])).map
          CardDev.addr := by
      have hHere := List.mem_map_of_mem (f := CardDev.addr) hd
      change d.addr ∈ (atDev s.next f s.mDevs ++
        atDev s.next f
          (s.sDevs ++ [call.dev s.next])).map _ at hHere
      rw [List.map_append, atDev_addr hAddr,
        atDev_addr hAddr, ← List.map_append] at hHere
      exact hHere
    rcases List.mem_map.mp hIn with ⟨d', hd', hEq⟩
    rw [← hEq]
    exact hSound'.devsOld d' hd'
  · change d ∈ atDev s.next f s.mDevs at hd
    rw [hMulti] at hd
    exact hSound.multi d hd
  · rcases mem_atDev hd with ⟨d', hd', ⟨-, rfl⟩ | ⟨-, rfl⟩⟩
    · exact hSound'.single d' hd'
    · exact hSound'.single _ hd'
  · change (s.fdMList.map FdNode.mFd ++ (atDev s.next f
      (s.sDevs ++ [call.dev s.next])).filterMap _).Nodup
    rw [hDevs, hOwned.nodup_iff]
    exact List.nodup_cons.mpr ⟨hNew, hSound.ownedNodup⟩
  · change fd' ∈ s.fdMList.map FdNode.mFd ++ (atDev s.next f
      (s.sDevs ++ [call.dev s.next])).filterMap _ at hMem
    rw [hDevs, hOwned.mem_iff] at hMem
    rcases List.mem_cons.mp hMem with rfl | hBefore
    · exact List.mem_cons_self
    · exact List.mem_cons_of_mem _
        (hSound.ownedOpen fd' hBefore)
  · change d ∈ atDev s.next f s.mDevs at hd
    rw [hMulti] at hd
    exact hSound.cursorIn d hd
  · change d ∈ atDev s.next f s.mDevs at hd
    rw [hMulti] at hd
    exact hSound.cursorSet d hd

/- The devices for one card behind the loop over `/dev`. -/
theorem withMulti_single
    {n : Nat} {entries : Option (List DirEntry)}
    (hSound : Sound s)
    (hAll :
      mOpenAll (s.withMulti call) entries = some (n, s₁)) :
    ∀ d ∈ s₁.sDevs, d.addr ≠ s.next := by
  intro d hd
  rw [(mOpenAll_work hAll).sDevs] at hd
  have hOld : ∀ d ∈ s.sDevs, d.addr < s.next := fun d hd =>
    hSound.devsOld d (List.mem_append_right _ hd)
  unfold Library.withMulti at hd
  simp only at hd
  split at hd
  · exact (hOld d hd).ne
  · rcases mem_atDev hd with ⟨d', hd', ⟨-, rfl⟩ | ⟨-, rfl⟩⟩
    · exact (hOld d' hd').ne
    · exact (hOld _ hd').ne

/- Behind the binding the cursor is where the list begins. -/
theorem bound_ready
    {dev : Nat}
    (hFd : (s.fdMList.head?.map FdNode.mFd).isSome) :
    ∀ d ∈ (s.bound call dev).mDevs, d.addr = dev →
      d.mFdPtr = none →
        (s.bound call dev).fdMList = [] := by
  intro d hd hAddr hPtr
  have hMem : d ∈ atDev dev (fun d =>
      { d with
        mFdPtr := s.fdMHead
        fdS := s.fdMList.head?.map FdNode.mFd
        appId := call.readAppId }) s.mDevs := by
    unfold Library.bound inotifyCreate at hd
    split at hd
    · exact hd
    split at hd
    · exact hd
    · exact hd
  rcases mem_atDev hMem with
    ⟨d', hd', ⟨-, rfl⟩ | ⟨hOther, rfl⟩⟩
  · simp only [Library.fdMHead, Option.map_eq_none_iff]
      at hPtr
    simp [hPtr] at hFd
  · exact (hOther hAddr).elim

theorem opening_sound
    {r : Option Nat × Int}
    (hSound : Sound s)
    (hOpening : Opening s call r s') :
    Sound s' := by
  cases hOpening with
  | noMemory _ => exact hSound
  | noCards hNo hAll =>
      exact cardClose_sound
        (mOpenAll_sound hAll (withMulti_sound hSound hNo)) _
  | cards hNo hAll =>
      have hOpened :=
        mOpenAll_sound hAll (withMulti_sound hSound hNo)
      exact finishOpen_sound
        (bound_sound hOpened (withMulti_single hSound hAll))
        bound_ready
  | noCard hNo =>
      exact cardClose_sound (withSingle_sound hSound hNo) _
  | @card s₁ fd hNo hFd =>
      have hOpened :=
        openOne_sound hSound hNo hFd call.readAppId
      refine finishOpen_sound hOpened ?_
      intro _ d hd hAddr
      have hOld : ∀ d ∈ s.mDevs, d.addr ≠ s.next :=
        fun d hd =>
          (hSound.devsOld d (List.mem_append_left _ hd)).ne
      have hWork := openFd_work hFd
      rcases hWork.mDevs with ⟨f, hM⟩
      rcases mem_atDev hd with ⟨d', hd', ⟨-, rfl⟩ | ⟨-, rfl⟩⟩
      · rw [hM] at hd'
        rcases List.mem_map.mp hd' with ⟨d'', hd'', rfl⟩
        exact (hOld d'' hd'' hAddr).elim
      · rw [hM] at hd'
        rcases List.mem_map.mp hd' with ⟨d'', hd'', rfl⟩
        exact (hOld d'' hd'' hAddr).elim

end OpeningSound

------------------------------------------------------------
-- What a Step Can Do
------------------------------------------------------------

/- The slot of the inotify thread is set. -/
def Library.noteCard
    (s : Library)
    (card : CardNo) : Library :=
  { s with
    ld :=
      { s.ld with
        inotifyCard := card
        inotifyEvent := .inotifyAttrib } }

/- A handle is given back by the application. -/
def Library.giveBack (s : Library) (dev : Nat) : Library :=
  { s with handles := s.handles.erase dev }

/- The outcomes of a step. -/
inductive LibOutcome
    (s : Library) : LibEvent → Library → Prop
  | opened
      {call : OpenCall} {r : Option Nat × Int} {s' : Library}
      (hOpening : Opening s call r s') :
      LibOutcome s (.open call, .opened r.1 r.2) s'
  | closed
      {dev : Nat} {d : CardDev}
      (hHandle : dev ∈ s.handles)
      (hDev : s.dev? dev = some d) :
      LibOutcome s (.close dev, .closed genwqeOk)
        (cardClose (s.giveBack dev) dev)
  | closedFreed
      {dev : Nat}
      (hHandle : dev ∈ s.handles)
      (hDev : s.dev? dev = none) :
      LibOutcome s (.close dev, .freed) (s.giveBack dev)
  | executed
      {dev len : Nat} {selected : Option Selected}
      {s₁ : Library}
      (hHandle : dev ∈ s.handles)
      (hGet : fdGet s dev = some (selected, s₁)) :
      LibOutcome s (.execute dev len, .got selected)
        (s₁.goOn ⟨dev, selected.map Selected.fd, len⟩)
  | executeFreed
      {dev len : Nat}
      (hHandle : dev ∈ s.handles)
      (hGet : fdGet s dev = none) :
      LibOutcome s (.execute dev len, .freed) s
  | done
      {exec : Exec} {fd left : Nat}
      (hRunning : exec ∈ s.running)
      (hFd : exec.fd = some fd)
      (hOpen : fd ∈ s.fds) :
      LibOutcome s (.ioctl exec .done, .again)
        ((s.leave exec).goOn { exec with left := left })
  | ioctlFreed
      {exec : Exec} {result : IoctlResult}
      (hRunning : exec ∈ s.running)
      (hFreed :
        s.dev? exec.dev = none ∨ fdGet s exec.dev = none) :
      LibOutcome s (.ioctl exec result, .freed)
        (s.leave exec)
  | retried
      {exec : Exec} {busy : Bool}
      {selected : Option Selected} {s₁ : Library}
      (hRunning : exec ∈ s.running)
      (hGet : fdGet s exec.dev = some (selected, s₁)) :
      LibOutcome s
        (.ioctl exec (.failed busy false), .got selected)
        ((s₁.leave exec).goOn
          { exec with fd := selected.map Selected.fd })
  | busy
      {exec : Exec} {timeout : Bool}
      (hRunning : exec ∈ s.running) :
      LibOutcome s (.ioctl exec (.failed true timeout), .again)
        s
  | failed
      {exec : Exec} {busy timeout : Bool}
      (hRunning : exec ∈ s.running) :
      LibOutcome s
        (.ioctl exec (.failed busy timeout),
          .returned genwqeErrExecDdcb)
        (s.leave exec)
  | finished
      {exec : Exec}
      (hRunning : exec ∈ s.running) :
      LibOutcome s (.finish exec, .returned genwqeOk)
        (s.leave exec)
  | checkedMulti
      {check : HealthCheck} {s₁ : Library}
      (hSome : s.mDevs ≠ [])
      (hHandle : inotifyHandle s check.reopen = some s₁) :
      LibOutcome s
        (.health check,
          .checked
            (check.reopen.map (fun _ => s.ld.inotifyCard)))
        (checkMulti s₁ check.used)
  | checkedSingle
      {check : HealthCheck}
      (hNone : s.mDevs = [])
      (hReopen : check.reopen = none) :
      LibOutcome s
        (.health check,
          .checked
            (check.reopen.map (fun _ => s.ld.inotifyCard)))
        (shealthCheck s check.used)
  | ignored
      {ie : InotifyEvent} :
      LibOutcome s (.inotify ie, .noted none) s
  | noted
      {ie : InotifyEvent} {card : CardNo}
      (hWatching : s.watching = true)
      (hCard : ie.card.bind cardOfInt = some card)
      (hState : s.ld.genwqeState card = .cardClosed) :
      LibOutcome s (.inotify ie, .noted (some card))
        (s.noteCard card)

section StepOutcome

variable {s s' : Library}

theorem stepExecute_outcome
    {exec : Exec} {result : IoctlResult} {answer : Answer}
    (hRunning : exec ∈ s.running)
    (hStep :
      stepExecute s exec result = some (answer, s')) :
    LibOutcome s (.ioctl exec result, answer) s' := by
  cases result with
  | done =>
      unfold stepExecute at hStep
      cases hFd : exec.fd with
      | none => simp [hFd] at hStep
      | some fd =>
          cases hLeft : exec.left with
          | zero => simp [hFd, hLeft] at hStep
          | succ left =>
              simp only [hFd, hLeft] at hStep
              split at hStep
              · cases hStep
              rename_i hOpen
              split at hStep
              · rename_i hDev
                cases hStep
                exact .ioctlFreed hRunning (Or.inl hDev)
              · cases hStep
                rw [← hFd]
                exact .done hRunning hFd (not_not.mp hOpen)
  | failed busy timeout =>
      unfold stepExecute at hStep
      simp only at hStep
      split at hStep
      · cases hStep
      cases hDev : s.dev? exec.dev with
      | none =>
          simp only [hDev] at hStep
          cases hStep
          exact .ioctlFreed hRunning (Or.inl hDev)
      | some d =>
          simp only [hDev] at hStep
          split at hStep
          · cases timeout with
            | true =>
                simp only [if_true] at hStep
                cases hStep
                exact .failed hRunning
            | false =>
                simp only [Bool.false_eq_true, if_false]
                  at hStep
                cases hGet : fdGet s exec.dev with
                | none =>
                    simp only [hGet] at hStep
                    cases hStep
                    exact .ioctlFreed hRunning (Or.inr hGet)
                | some r =>
                    simp only [hGet] at hStep
                    cases hStep
                    exact .retried hRunning hGet
          · cases busy with
            | true =>
                simp only [if_true] at hStep
                cases hStep
                exact .busy hRunning
            | false =>
                simp only [Bool.false_eq_true, if_false]
                  at hStep
                cases hStep
                exact .failed hRunning

theorem inotify_outcome
    {ie : InotifyEvent} {noted : Option CardNo}
    (hWatching : s.watching = true)
    (hStep : inotifyHandleEvent s ie = some (noted, s')) :
    LibOutcome s (.inotify ie, .noted noted) s' := by
  unfold inotifyHandleEvent at hStep
  cases hIe : ie.card with
  | none =>
      simp only [hIe] at hStep
      cases hStep
      exact .ignored
  | some n =>
      simp only [hIe] at hStep
      rcases Option.map_eq_some_iff.mp hStep with
        ⟨card, hCard, hEq⟩
      split at hEq
      · rename_i hState
        cases hEq
        exact .noted hWatching (by rw [hIe]; exact hCard)
          hState
      · cases hEq
        exact .ignored

theorem libStep_outcome
    {event : LibEvent}
    (hStep : libStep s event s') :
    LibOutcome s event s' := by
  rcases event with ⟨act, answer⟩
  unfold libStep at hStep
  cases act with
  | «open» call =>
      rcases Option.map_eq_some_iff.mp hStep with
        ⟨r, hOpen, hEq⟩
      cases hEq
      exact .opened (cardOpen_cases hOpen)
  | close dev =>
      simp only [libCall] at hStep
      split at hStep
      · rename_i hHandle
        cases hDev : s.dev? dev with
        | none =>
            simp only [hDev] at hStep
            cases hStep
            exact .closedFreed hHandle hDev
        | some d =>
            simp only [hDev] at hStep
            cases hStep
            exact .closed hHandle hDev
      · cases hStep
  | execute dev len =>
      simp only [libCall, startExecute] at hStep
      split at hStep
      · rename_i hHandle
        cases hGet : fdGet s dev with
        | none =>
            simp only [hGet] at hStep
            cases hStep
            exact .executeFreed hHandle hGet
        | some r =>
            simp only [hGet] at hStep
            cases hStep
            exact .executed hHandle hGet
      · cases hStep
  | ioctl exec result =>
      simp only [libCall] at hStep
      split at hStep
      · rename_i hRunning
        exact stepExecute_outcome hRunning hStep
      · cases hStep
  | finish exec =>
      simp only [libCall] at hStep
      split at hStep
      · rename_i hRunning
        cases hStep
        exact .finished hRunning.1
      · cases hStep
  | health check =>
      rcases Option.map_eq_some_iff.mp hStep with
        ⟨s₁, hFix, hEq⟩
      cases hEq
      unfold fixupFdLists at hFix
      split at hFix
      · rename_i hSome
        rcases Option.map_eq_some_iff.mp hFix with
          ⟨s₂, hHandle, rfl⟩
        exact .checkedMulti hSome hHandle
      · rename_i hNone
        split at hFix
        · cases hFix
        · rename_i hReopen
          cases hFix
          exact .checkedSingle (not_not.mp hNone)
            (not_not.mp hReopen)
  | inotify ie =>
      simp only [libCall] at hStep
      split at hStep
      · rename_i hWatching
        rcases Option.map_eq_some_iff.mp hStep with
          ⟨r, hEvent, hEq⟩
        cases hEq
        exact inotify_outcome hWatching hEvent
      · cases hStep

/- Every step keeps the invariant. -/
theorem libStep_sound
    {event : LibEvent}
    (hSound : Sound s)
    (hStep : libStep s event s') :
    Sound s' := by
  cases libStep_outcome hStep with
  | opened hOpening => exact opening_sound hSound hOpening
  | @closed dev d _ _ =>
      have hBack : Sound (s.giveBack dev) :=
        hSound.congr rfl rfl rfl rfl rfl
      exact cardClose_sound hBack dev
  | closedFreed _ _ => exact hSound.congr rfl rfl rfl rfl rfl
  | executed _ hGet =>
      exact (fdGet_sound hSound hGet).congr rfl rfl rfl rfl
        rfl
  | executeFreed _ _ => exact hSound
  | done _ _ _ => exact hSound.congr rfl rfl rfl rfl rfl
  | ioctlFreed _ _ => exact hSound.congr rfl rfl rfl rfl rfl
  | retried _ hGet =>
      exact (fdGet_sound hSound hGet).congr rfl rfl rfl rfl
        rfl
  | busy _ => exact hSound
  | failed _ => exact hSound.congr rfl rfl rfl rfl rfl
  | finished _ => exact hSound.congr rfl rfl rfl rfl rfl
  | @checkedMulti check s₁ _ hHandle =>
      exact checkMulti_sound
        (inotifyHandle_sound hHandle hSound) check.used
  | @checkedSingle check _ _ =>
      exact (shealthCheck_keeps (fun _ => True) check.used
        hSound (fun _ _ _ _ _ _ => trivial) trivial).1
  | ignored => exact hSound
  | noted _ _ _ => exact hSound.congr rfl rfl rfl rfl rfl

theorem libRun_sound
    {trace : List LibEvent}
    (hRun : LibRun trace s) :
    Sound s :=
  hRun.preserves Sound init_sound
    (fun _ _ _ hSound hStep => libStep_sound hSound hStep)

end StepOutcome

------------------------------------------------------------
-- Runs of Given Acts
------------------------------------------------------------

/- The event that an act is in a state. -/
def Library.event (s : Library) (act : Act) : LibEvent :=
  (act, ((libCall s act).map Prod.fst).getD .freed)

/- The state behind an act. -/
def Library.after (s : Library) (act : Act) : Library :=
  ((libCall s act).map Prod.snd).getD s

theorem libStep_after
    {s : Library} {act : Act}
    (hCan : (libCall s act).isSome) :
    libStep s (s.event act) (s.after act) := by
  unfold libStep Library.event Library.after
  cases hCall : libCall s act with
  | none => simp [hCall] at hCan
  | some r => rfl

theorem LibRun.act
    {trace : List LibEvent} {s : Library}
    (hRun : LibRun trace s)
    (act : Act)
    (hCan : (libCall s act).isSome) :
    LibRun (trace ++ [s.event act]) (s.after act) :=
  Run.next hRun (libStep_after hCan)

/- The inotify thread starts. -/
def watchStarts : WatchOpen :=
  { init := true
    addWatch := true
    thread := true
    leftTid := false }

/- An open that finds memory and the right application. -/
def openWith
    (cardNo : Int)
    (entries : List DirEntry)
    (devOpen : Option Nat) : OpenCall :=
  { cardNo := cardNo
    mode := 0
    cardAppId := 0
    cardAppIdMask := 0
    alloc := true
    entries := some entries
    devOpen := devOpen
    readAppId := 0
    watch := watchStarts }

/- A card of `/dev` that is opened with a descriptor. -/
def opens (card : Int) (fd : Nat) : DirEntry :=
  { cardNo := some card, attempt := some (.opened fd true) }

/- A card of `/dev` that cannot be opened. -/
def opensNot (card : Int) : DirEntry :=
  { cardNo := some card, attempt := some .failed }

/- An open for all cards that finds the first two. -/
def openTwo : Act :=
  .open (openWith genwqeCardRedundant [opens 0 3, opens 1 4]
    none)

/- Two cards, and a device for all cards. -/
def twoCards : Library := Library.init.after openTwo

theorem twoCards_run :
    LibRun ([] ++ [Library.init.event openTwo]) twoCards :=
  LibRun.act Run.start openTwo rfl

end Libcard
