import GenWqe.Card.States

/-
  The lifetime of handles, nodes and descriptors: handles are
  on their list until they are closed, and what is released
  is released once.

  Key definitions include:
    * `strictMulti` and `strictSingle`
    * `Lifetime`
    * `LifeKept`
    * `Living`

  Main results:
    * `strictMulti_eq` and `strictSingle_eq`
    * `living_step`
    * `lifetime_of_kept`
-/

namespace Libcard

------------------------------------------------------------
-- Lifetimes
------------------------------------------------------------

/- A node is on the list, and its descriptor is open. -/
def NodeLive (s : Library) (node : FdNode) : Prop :=
  node ∈ s.fdMList ∧ node.mFd ∈ s.fds

instance
    (s : Library)
    (node : FdNode) :
    Decidable (NodeLive s node) :=
  inferInstanceAs (Decidable (_ ∧ _))

/- A device is on its list, and its descriptor is open. -/
def DevLive (s : Library) (dev : CardDev) : Prop :=
  dev ∈ s.sDevs ∧ ∀ fd ∈ dev.fdS.toList, fd ∈ s.fds

instance
    (s : Library)
    (dev : CardDev) :
    Decidable (DevLive s dev) :=
  inferInstanceAs (Decidable (_ ∧ _))

/-
  `checkMulti` where it goes wrong to work on a node that was
  freed, or on one whose descriptor was closed.
-/
def strictMulti
    (s : Library)
    (used : Nat → Bool) : Option Library :=
  let s' := { s with mDevs := deletePending s.mDevs }
  if s'.mDevs = [] then
    s'.fdMList.foldlM (strictly NodeLive closeNode) s'
  else
    s'.fdMList.foldlM (strictly NodeLive (checkNode used)) s'

/- The same for `shealthCheck`. -/
def strictSingle
    (s : Library)
    (used : Nat → Bool) : Option Library :=
  s.sDevs.foldlM (strictly DevLive (checkDev used)) s

/- The handle is a device in use on the list of its kind. -/
def Held (s : Library) (h : Nat) : Prop :=
  ∃ d : CardDev,
    d.addr = h ∧ d.devState = .devHaveFd ∧
      ((d.cardNo = genwqeCardRedundant ∧ d ∈ s.mDevs) ∨
        (d.cardNo ≠ genwqeCardRedundant ∧ d ∈ s.sDevs))

/-
  What a handle promises: it is on its list, and executes on
  it get descriptors that are open and never meet memory that
  was freed. Each open descriptor is the one of a node or of
  a device, and of no other, and checks never work on what
  has been released already.
-/
structure Lifetime (s : Library) : Prop where
  held : ∀ h ∈ s.handles, Held s h
  executes :
    ∀ h ∈ s.handles, ∃ selected s',
      fdGet s h = some (selected, s') ∧
        ∀ sel, selected = some sel → sel.fd ∈ s.fds
  ioctls :
    ∀ exec result answer s',
      exec.dev ∈ s.handles →
        stepExecute s exec result = some (answer, s') →
          answer ≠ .freed ∧
            ∀ sel, answer = .got (some sel) → sel.fd ∈ s.fds
  once : s.fds.Nodup
  owners : s.fds.Perm s.owned
  checksMulti :
    ∀ reopen used s₁,
      inotifyHandle s reopen = some s₁ →
        strictMulti s₁ used = some (checkMulti s₁ used)
  checksSingle :
    ∀ used,
      strictSingle s used = some (shealthCheck s used)

/-
  There is memory for every node that is needed, and a check
  of the devices for one card finds the cards of those that
  applications hold in use.
-/
def LifeKept (s : Library) : Act → Prop
  | .open call => ListKept s (.open call)
  | .health check =>
      (∀ fd alloc,
        check.reopen = some (.opened fd alloc) →
          alloc = true) ∧
        (s.mDevs = [] →
          ∀ dev ∈ s.sDevs, dev.addr ∈ s.handles →
            ∀ fd, dev.fdS = some fd → check.used fd = true)
  | _ => True

/- A step under which handles live on. -/
def lifeStep
    (s : Library)
    (event : LibEvent)
    (s' : Library) : Prop :=
  libStep s event s' ∧ LifeKept s event.1

------------------------------------------------------------
-- Strict Checks
------------------------------------------------------------

section Strict

variable {s : Library}

theorem strictMulti_eq
    (hSound : Sound s)
    (used : Nat → Bool) :
    strictMulti s used = some (checkMulti s used) := by
  have hSound' := pending_sound hSound
  have hGuard : ∀ s node, Sound s → node ∈ s.fdMList →
      NodeLive s node :=
    fun _ _ hS hMem => ⟨hMem, hS.list_open hMem⟩
  unfold strictMulti checkMulti
  simp only
  split
  · rename_i hNone
    exact sweep_strictly
      (fun s => Sound s ∧ s.mDevs = []) NodeLive s.fdMList
      (fun s node h hMem => hGuard s node h.1 hMem)
      (fun s node h hMem =>
        ⟨closeNode_sound h.1 h.2 hMem, h.2⟩)
      (fun s node node' h hMem hMem' hOther =>
        eraseP_others h.1 hMem hMem' hOther)
      hSound.nodes (fun _ hMem => hMem) ⟨hSound', hNone⟩
  · exact sweep_strictly Sound NodeLive s.fdMList hGuard
      (fun s node hS hMem => checkNode_sound hS used hMem)
      (fun s node node' hS hMem hMem' hOther =>
        checkNode_others hS used hMem hMem' hOther)
      hSound.nodes (fun _ hMem => hMem) hSound'

theorem strictSingle_eq
    (hSound : Sound s)
    (used : Nat → Bool) :
    strictSingle s used = some (shealthCheck s used) :=
  sweep_strictly Sound DevLive s.sDevs
    (fun _ _ hS hMem =>
      ⟨hMem, fun _ hFd =>
        hS.dev_open hMem (Option.mem_toList.mp hFd)⟩)
    (fun _ _ hS hMem => checkDev_sound hS used hMem)
    (fun _ _ _ _ _ hMem hOther =>
      checkDev_others used hMem hOther)
    hSound.sDevs_nodup (fun _ hMem => hMem) hSound

end Strict

------------------------------------------------------------
-- What Lives On
------------------------------------------------------------

/- No open descriptor is lost. -/
def Accounted (s : Library) : Prop :=
  ∀ fd ∈ s.fds, fd ∈ s.owned

/- The devices of a library on either list. -/
def Library.devs (s : Library) : List CardDev :=
  s.mDevs ++ s.sDevs

structure Living (s : Library) : Prop where
  accounted : Accounted s
  handles : s.handles.Nodup
  held :
    ∀ h ∈ s.handles, ∃ d ∈ s.devs,
      d.addr = h ∧ d.devState = .devHaveFd

/- A device that is about to be handed out. -/
structure Prepared (a : Nat) (s : Library) : Prop where
  living : Living s
  fresh : a ∉ s.handles
  there : ∃ d ∈ s.devs, d.addr = a

theorem init_living : Living Library.init :=
  ⟨fun _ hMem => (List.not_mem_nil hMem).elim,
    List.nodup_nil,
    fun _ hMem => (List.not_mem_nil hMem).elim⟩

section Life

variable {s s' s₁ : Library}

theorem Accounted.congr
    (hAcc : Accounted s)
    (hFds : s'.fds = s.fds)
    (hList : s'.fdMList = s.fdMList)
    (hS : s'.sDevs = s.sDevs) :
    Accounted s' := by
  unfold Accounted Library.owned
  rw [hFds, hList, hS]
  exact hAcc

theorem Living.old
    (hLiving : Living s)
    (hSound : Sound s)
    {h : Nat}
    (hMem : h ∈ s.handles) :
    h < s.next := by
  rcases hLiving.held h hMem with ⟨d, hd, rfl, -⟩
  exact hSound.devsOld d hd

/- Nothing but other data changes. -/
theorem Living.congr
    (hLiving : Living s)
    (hFds : s'.fds = s.fds)
    (hList : s'.fdMList = s.fdMList)
    (hM : s'.mDevs = s.mDevs)
    (hS : s'.sDevs = s.sDevs)
    (hHandles : s'.handles = s.handles) :
    Living s' := by
  refine ⟨hLiving.accounted.congr hFds hList hS, ?_, ?_⟩
  · rw [hHandles]
    exact hLiving.handles
  · unfold Library.devs
    rw [hHandles, hM, hS]
    exact hLiving.held

/- Work on the list of descriptors leaves the devices. -/
theorem ListWork.dev
    (hWork : ListWork s s')
    {d : CardDev}
    (hMem : d ∈ s.devs) :
    ∃ d' ∈ s'.devs,
      d'.addr = d.addr ∧ d'.devState = d.devState := by
  rcases hWork.mDevs with ⟨f, hM⟩
  rcases List.mem_append.mp hMem with hMulti | hSingle
  · refine ⟨{ d with mFdPtr := f d }, ?_, rfl, rfl⟩
    apply List.mem_append_left
    rw [hM]
    exact List.mem_map_of_mem hMulti
  · refine ⟨d, ?_, rfl, rfl⟩
    apply List.mem_append_right
    rw [hWork.sDevs]
    exact hSingle

theorem Living.work
    (hLiving : Living s)
    (hWork : ListWork s s')
    (hAcc : Accounted s') :
    Living s' := by
  refine ⟨hAcc, ?_, fun h hMem => ?_⟩
  · rw [hWork.handles]
    exact hLiving.handles
  · rw [hWork.handles] at hMem
    rcases hLiving.held h hMem with ⟨d, hd, hAddr, hState⟩
    rcases hWork.dev hd with ⟨d', hd', hAddr', hState'⟩
    exact ⟨d', hd', hAddr'.trans hAddr, hState'.trans hState⟩

theorem Prepared.work
    {a : Nat}
    (hPrepared : Prepared a s)
    (hWork : ListWork s s')
    (hAcc : Accounted s') :
    Prepared a s' := by
  refine ⟨hPrepared.living.work hWork hAcc, ?_, ?_⟩
  · rw [hWork.handles]
    exact hPrepared.fresh
  · rcases hPrepared.there with ⟨d, hd, hAddr⟩
    rcases hWork.dev hd with ⟨d', hd', hAddr', -⟩
    exact ⟨d', hd', hAddr'.trans hAddr⟩

theorem Prepared.congr
    {a : Nat}
    (hPrepared : Prepared a s)
    (hFds : s'.fds = s.fds)
    (hList : s'.fdMList = s.fdMList)
    (hM : s'.mDevs = s.mDevs)
    (hS : s'.sDevs = s.sDevs)
    (hHandles : s'.handles = s.handles) :
    Prepared a s' := by
  refine ⟨hPrepared.living.congr hFds hList hM hS hHandles,
    ?_, ?_⟩
  · rw [hHandles]
    exact hPrepared.fresh
  · unfold Library.devs
    rw [hM, hS]
    exact hPrepared.there

/- A device behind a change of those at an address. -/
theorem update_dev
    {a : Nat} {f : CardDev → CardDev} {d : CardDev}
    (hMem : d ∈ s.devs) :
    (if d.addr = a then f d else d) ∈ (s.update a f).devs := by
  rcases List.mem_append.mp hMem with hMulti | hSingle
  · exact List.mem_append_left _ (List.mem_map_of_mem hMulti)
  · exact List.mem_append_right _
      (List.mem_map_of_mem hSingle)

/- A change that leaves the devices that are held in use. -/
theorem update_held
    {a : Nat} {f : CardDev → CardDev}
    (hLiving : Living s)
    (hAddr : ∀ d, (f d).addr = d.addr)
    (hState :
      ∀ d, a ∈ s.handles →
        (f d).devState = d.devState) :
    ∀ h ∈ s.handles, ∃ d ∈ (s.update a f).devs,
      d.addr = h ∧ d.devState = .devHaveFd := by
  intro h hMem
  rcases hLiving.held h hMem with ⟨d, hd, rfl, hHave⟩
  refine ⟨_, update_dev hd, ?_⟩
  split
  · rename_i hHere
    subst hHere
    exact ⟨hAddr d, (hState d hMem).trans hHave⟩
  · exact ⟨rfl, hHave⟩

theorem update_accounted
    {a : Nat} {f : CardDev → CardDev}
    (hAcc : Accounted s)
    (hFd :
      ∀ d ∈ s.sDevs, d.addr = a → (f d).fdS = d.fdS) :
    Accounted (s.update a f) := by
  intro fd hMem
  have hOwned := hAcc fd hMem
  unfold Library.owned at hOwned ⊢
  change fd ∈ _ ++ (atDev a f s.sDevs).filterMap _
  rw [atDev_fdS hFd]
  exact hOwned

theorem Living.update
    {a : Nat} {f : CardDev → CardDev}
    (hLiving : Living s)
    (hAddr : ∀ d, (f d).addr = d.addr)
    (hFd :
      ∀ d ∈ s.sDevs, d.addr = a → (f d).fdS = d.fdS)
    (hState :
      ∀ d, a ∈ s.handles →
        (f d).devState = d.devState) :
    Living (s.update a f) :=
  ⟨update_accounted hLiving.accounted hFd, hLiving.handles,
    update_held hLiving hAddr hState⟩

theorem Prepared.update
    {a : Nat} {f : CardDev → CardDev}
    (hPrepared : Prepared a s)
    (hAddr : ∀ d, (f d).addr = d.addr)
    (hFd :
      ∀ d ∈ s.sDevs, d.addr = a → (f d).fdS = d.fdS) :
    Prepared a (s.update a f) := by
  refine ⟨?_, hPrepared.fresh, ?_⟩
  · exact hPrepared.living.update hAddr hFd
      (fun _ hMem => (hPrepared.fresh hMem).elim)
  · rcases hPrepared.there with ⟨d, hd, rfl⟩
    refine ⟨_, update_dev hd, ?_⟩
    rw [if_pos rfl]
    exact hAddr d

/- A descriptor for a new node is accounted for. -/
theorem fdMAdd_accounted
    {fd : Nat}
    (hAcc : Accounted s)
    (hOpen : s.openFd fd = some s₁)
    (card : CardNo) :
    Accounted (fdMAdd s₁ fd card true) := by
  have hWork := fdMAdd_work s₁ fd card true
  have hList := (fdMAdd_list s₁ fd card).1
  have hFds : (fdMAdd s₁ fd card true).fds = s₁.fds := by
    unfold fdMAdd
    simp only
    split <;> rfl
  unfold Library.openFd at hOpen
  split at hOpen
  · cases hOpen
  cases hOpen
  intro fd' hMem
  unfold Library.owned
  rw [hList, hWork.sDevs, List.map_append, List.append_assoc]
  rw [hFds] at hMem
  rcases List.mem_cons.mp hMem with rfl | hOld
  · exact List.mem_append_right _ List.mem_cons_self
  · rcases List.mem_append.mp (hAcc fd' hOld) with
      hNode | hDev
    · exact List.mem_append_left _ hNode
    · exact List.mem_append_right _
        (List.mem_cons_of_mem _ hDev)

/- A descriptor is closed with its node. -/
theorem removed_accounted
    {node : FdNode}
    (hSound : Sound s)
    (hAcc : Accounted s)
    (hMem : node ∈ s.fdMList)
    (hList :
      s'.fdMList =
        s.fdMList.eraseP (fun n => n.mFd == node.mFd))
    (hFds : s'.fds = s.fds.erase node.mFd)
    (hS : s'.sDevs = s.sDevs) :
    Accounted s' := by
  intro fd hOpen
  have hOwned : s'.owned = s.owned.erase node.mFd := by
    rw [← eraseP_owned hMem]
    unfold Library.owned
    rw [hList, hS]
  rw [hFds] at hOpen
  have hNe : fd ≠ node.mFd := by
    rintro rfl
    exact hSound.fds.not_mem_erase hOpen
  rw [hOwned]
  exact (List.mem_erase_of_ne hNe).mpr
    (hAcc fd (List.mem_of_mem_erase hOpen))

/- A descriptor is closed with its device. -/
theorem releaseDev_accounted
    {dev : CardDev}
    (hSound : Sound s)
    (hAcc : Accounted s)
    (hMem : dev ∈ s.sDevs) :
    Accounted (releaseDev s dev) := by
  have hPerm := release_perm hSound hMem
  unfold releaseDev
  cases hFd : dev.fdS with
  | none =>
      rw [hFd] at hPerm
      intro fd hOpen
      exact hPerm.mem_iff.mp (hAcc fd hOpen)
  | some fd =>
      rw [hFd] at hPerm
      intro fd' hOpen
      change fd' ∈ s.fds.erase fd at hOpen
      have hBoth := hPerm.mem_iff.mp
        (hAcc fd' (List.mem_of_mem_erase hOpen))
      rcases List.mem_cons.mp hBoth with rfl | hRest
      · exact (hSound.fds.not_mem_erase hOpen).elim
      · exact hRest

/- Other devices stay when one is deleted. -/
theorem releaseDev_living
    {dev : CardDev}
    (hSound : Sound s)
    (hLiving : Living s)
    (hMem : dev ∈ s.sDevs)
    (hFree : dev.addr ∉ s.handles) :
    Living (releaseDev s dev) := by
  have hSame : (releaseDev s dev).handles = s.handles ∧
      (releaseDev s dev).mDevs = s.mDevs ∧
        (releaseDev s dev).sDevs =
          (sNodeDelete s dev).sDevs := by
    unfold releaseDev
    cases dev.fdS with
    | none => exact ⟨rfl, rfl, rfl⟩
    | some fd => exact ⟨rfl, rfl, rfl⟩
  rcases hSame with ⟨hHandles, hM, hS⟩
  refine ⟨releaseDev_accounted hSound hLiving.accounted hMem,
    ?_, fun h hHeld => ?_⟩
  · rw [hHandles]
    exact hLiving.handles
  · rw [hHandles] at hHeld
    rcases hLiving.held h hHeld with ⟨d, hd, rfl, hState⟩
    refine ⟨d, ?_, rfl, hState⟩
    have hOther : d.addr ≠ dev.addr := fun hAddr =>
      hFree (hAddr ▸ hHeld)
    unfold Library.devs
    rw [hM, hS]
    rcases List.mem_append.mp hd with hMulti | hSingle
    · exact List.mem_append_left _ hMulti
    · apply List.mem_append_right
      simp [sNodeDelete, hSingle, hOther]

/- A device in use is told from one that is to be closed. -/
theorem Living.notPending
    (hLiving : Living s)
    (hSound : Sound s)
    {dev : CardDev}
    (hMem : dev ∈ s.devs)
    (hHandle : dev.addr ∈ s.handles) :
    dev.devState = .devHaveFd := by
  rcases hLiving.held _ hHandle with ⟨d, hd, hAddr, hState⟩
  have hSame := eq_of_key hSound.devs hd hMem hAddr
  rw [← hSame]
  exact hState

------------------------------------------------------------
-- The Steps of Checks
------------------------------------------------------------

theorem checkMulti_living
    (hSound : Sound s)
    (hLiving : Living s)
    (used : Nat → Bool) :
    Living (checkMulti s used) := by
  refine (checkMulti_keeps Living used hSound ?_ ?_ ?_).2
  · intro s node hS _ hL hMem
    exact hL.work (closeNode_work s node)
      (removed_accounted hS hL.accounted hMem rfl rfl rfl)
  · intro s node hS hL hMem
    refine hL.work (checkNode_work used s node) ?_
    unfold checkNode
    split
    · exact removed_accounted hS hL.accounted hMem rfl rfl
        rfl
    · exact hL.accounted
  · refine ⟨hLiving.accounted, hLiving.handles,
      fun h hMem => ?_⟩
    rcases hLiving.held h hMem with ⟨d, hd, hAddr, hState⟩
    refine ⟨d, ?_, hAddr, hState⟩
    rcases List.mem_append.mp hd with hMulti | hSingle
    · apply List.mem_append_left
      refine mem_deletePending.mpr ⟨hMulti, ?_⟩
      rw [hState]
      exact nofun
    · exact List.mem_append_right _ hSingle

theorem checkDev_living
    {used : Nat → Bool} {dev : CardDev}
    (hSound : Sound s)
    (hLiving : Living s)
    (hMem : dev ∈ s.sDevs)
    (hUsed :
      dev.addr ∈ s.handles →
        ∀ fd, dev.fdS = some fd → used fd = true) :
    Living (checkDev used s dev) := by
  unfold checkDev
  split
  · rename_i hPending
    apply releaseDev_living hSound hLiving hMem
    intro hHandle
    have hState := hLiving.notPending hSound
      (List.mem_append_right _ hMem) hHandle
    rw [hPending] at hState
    cases hState
  · cases hFd : dev.fdS with
    | none => exact hLiving
    | some fd =>
        simp only
        split
        · rename_i hGone
          apply releaseDev_living hSound hLiving hMem
          intro hHandle
          rw [hUsed hHandle fd hFd] at hGone
          cases hGone
        · exact hLiving

theorem checkDev_handles
    (used : Nat → Bool)
    (s : Library)
    (dev : CardDev) :
    (checkDev used s dev).handles = s.handles := by
  unfold checkDev releaseDev
  split
  · cases dev.fdS with
    | none => rfl
    | some fd => rfl
  · cases dev.fdS with
    | none => rfl
    | some fd =>
        simp only
        split <;> rfl

theorem shealthCheck_living
    {used : Nat → Bool}
    (hSound : Sound s)
    (hLiving : Living s)
    (hUsed :
      ∀ dev ∈ s.sDevs, dev.addr ∈ s.handles →
        ∀ fd, dev.fdS = some fd → used fd = true) :
    Living (shealthCheck s used) := by
  have hBoth := shealthCheck_keeps
    (fun s' => Living s' ∧ s'.handles = s.handles) used
    hSound ?_ ⟨hLiving, rfl⟩
  · exact hBoth.2.1
  · intro s' dev hDev hS h hMem
    refine ⟨checkDev_living hS h.1 hMem ?_, ?_⟩
    · rw [h.2]
      exact hUsed dev hDev
    · rw [checkDev_handles]
      exact h.2

/- A card that is opened again. -/
theorem inotifyHandle_living
    {reopen : Option DevOpen}
    (hLiving : Living s)
    (hAlloc :
      ∀ fd alloc, reopen = some (.opened fd alloc) →
        alloc = true)
    (hHandle : inotifyHandle s reopen = some s') :
    Living s' := by
  refine hLiving.work (inotifyHandle_work hHandle) ?_
  rcases inotifyHandle_cases hHandle with ⟨rfl, -⟩ |
    ⟨fd, alloc, s₁, -, hReopen, hOpen, rfl⟩
  · exact hLiving.accounted
  · obtain rfl := hAlloc fd alloc hReopen
    exact (fdMAdd_accounted hLiving.accounted hOpen
      s.ld.inotifyCard).congr rfl rfl rfl

------------------------------------------------------------
-- The Steps of Opening and Executing
------------------------------------------------------------

variable {call : OpenCall}

/- A device that was not there is added. -/
theorem withMulti_prepared
    (hSound : Sound s)
    (hLiving : Living s) :
    Prepared s.next (s.withMulti call) := by
  have hFresh : s.next ∉ s.handles := fun hMem =>
    (hLiving.old hSound hMem).ne rfl
  have hAdded : ∀ s' : Library,
      s'.mDevs = s.mDevs ++ [call.dev s.next] →
        s'.sDevs = s.sDevs → s'.handles = s.handles →
          s'.fds = s.fds → s'.fdMList = s.fdMList →
            Prepared s.next s' := by
    intro s' hM hS hHandles hFds hList
    refine ⟨⟨hLiving.accounted.congr hFds hList hS, ?_,
      fun h hMem => ?_⟩, ?_, ?_⟩
    · rw [hHandles]
      exact hLiving.handles
    · rw [hHandles] at hMem
      rcases hLiving.held h hMem with ⟨d, hd, hRest⟩
      refine ⟨d, ?_, hRest⟩
      unfold Library.devs at hd ⊢
      rw [hM, hS]
      simp only [List.mem_append] at hd ⊢
      exact hd.imp_left Or.inl
    · rw [hHandles]
      exact hFresh
    · refine ⟨call.dev s.next, ?_, rfl⟩
      unfold Library.devs
      rw [hM]
      simp
  unfold Library.withMulti
  simp only
  split
  · exact hAdded _ rfl rfl rfl rfl rfl
  · exact Prepared.update (hAdded _ rfl rfl rfl rfl rfl)
      (fun _ => rfl) (fun _ _ _ => rfl)

theorem withSingle_prepared
    (hSound : Sound s)
    (hLiving : Living s) :
    Prepared s.next (s.withSingle call) := by
  have hFresh : s.next ∉ s.handles := fun hMem =>
    (hLiving.old hSound hMem).ne rfl
  refine ⟨⟨fun fd hMem => ?_, hLiving.handles,
    fun h hMem => ?_⟩, hFresh, ⟨call.dev s.next, ?_, rfl⟩⟩
  · rcases List.mem_append.mp (hLiving.accounted fd hMem)
      with hNode | hDev
    · exact List.mem_append_left _ hNode
    · apply List.mem_append_right
      unfold Library.withSingle
      rw [List.filterMap_append]
      exact List.mem_append_left _ hDev
  · rcases hLiving.held h hMem with ⟨d, hd, hRest⟩
    refine ⟨d, ?_, hRest⟩
    rcases List.mem_append.mp hd with hMulti | hSingle
    · exact List.mem_append_left _ hMulti
    · exact List.mem_append_right _
        (List.mem_append_left _ hSingle)
  · apply List.mem_append_right
    exact List.mem_append_right _ List.mem_cons_self

/- The loop over the entries of `/dev`. -/
theorem mOpenAll_prepared
    {n a : Nat}
    (hPrepared : Prepared a s)
    (hMemory :
      ∀ entry ∈ call.entries.getD [], ∀ fd alloc,
        entry.attempt = some (.opened fd alloc) →
          alloc = true)
    (hAll : mOpenAll s call.entries = some (n, s')) :
    Prepared a s' := by
  refine hPrepared.work (mOpenAll_work hAll) ?_
  refine mOpenAll_keeps Accounted ?_ hAll
    hPrepared.living.accounted
  intro s card fd alloc s₁ hAcc hEntry _ hOpen
  rcases hEntry with ⟨entry, hMem, -, hAttempt⟩
  obtain rfl := hMemory entry hMem fd alloc hAttempt
  exact (fdMAdd_accounted hAcc hOpen card).congr rfl rfl rfl

theorem Prepared.close
    {a : Nat}
    (hPrepared : Prepared a s) :
    Living (cardClose s a) :=
  (hPrepared.update
    (f := fun d => { d with devState := .devReqClose })
    (fun _ => rfl) (fun _ _ _ => rfl)).living

/- The device becomes a handle, or it is to be closed. -/
theorem finishOpen_living
    {a : Nat}
    (hPrepared : Prepared a s)
    (fd : Option Nat) :
    Living (finishOpen s call a fd).2 := by
  unfold finishOpen
  split
  · have hReady := hPrepared.update
      (f := fun d => { d with devState := .devHaveFd })
      (fun _ => rfl) (fun _ _ _ => rfl)
    refine ⟨hReady.living.accounted,
      List.nodup_cons.mpr
        ⟨hReady.fresh, hReady.living.handles⟩,
      fun h hMem => ?_⟩
    rcases List.mem_cons.mp hMem with rfl | hOld
    · rcases hPrepared.there with ⟨d, hd, rfl⟩
      refine ⟨_, update_dev hd, ?_⟩
      rw [if_pos rfl]
      exact ⟨rfl, rfl⟩
    · exact hReady.living.held h hOld
  · exact hPrepared.close

theorem bound_prepared
    {a : Nat}
    (hPrepared : Prepared a s)
    (hSingle : ∀ d ∈ s.sDevs, d.addr ≠ a) :
    Prepared a (s.bound call a) := by
  have hBound := hPrepared.update
    (f := fun d =>
      { d with
        mFdPtr := s.fdMHead
        fdS := s.fdMList.head?.map FdNode.mFd
        appId := call.readAppId })
    (fun _ => rfl)
    (fun d hd hAddr => (hSingle d hd hAddr).elim)
  unfold Library.bound inotifyCreate
  split
  · exact hBound
  split
  · exact hBound
  · exact hBound.congr rfl rfl rfl rfl rfl

/- The new device for one card gets its descriptor. -/
theorem openOne_prepared
    {fd : Nat}
    (hSound : Sound s)
    (hLiving : Living s)
    (hFd : (s.withSingle call).openFd fd = some s₁)
    (appId : UInt64) :
    Prepared s.next ((s₁.update s.next (fun d =>
      { d with fdS := some fd, appId := appId })).countFdS
        1) := by
  have hPrepared : Prepared s.next (s.withSingle call) :=
    withSingle_prepared hSound hLiving
  let f : CardDev → CardDev := fun d =>
    { d with fdS := some fd, appId := appId }
  unfold Library.openFd at hFd
  split at hFd
  · cases hFd
  cases hFd
  have hAcc : ∀ fd' ∈ fd :: s.fds,
      fd' ∈ ((s.withSingle call).update s.next f).owned := by
    intro fd' hMem
    rcases List.mem_cons.mp hMem with rfl | hOld
    · apply List.mem_append_right
      refine List.mem_filterMap.mpr
        ⟨f (call.dev s.next), ?_, rfl⟩
      refine List.mem_map.mpr ⟨call.dev s.next, ?_, ?_⟩
      · exact List.mem_append_right _ List.mem_cons_self
      · exact if_pos rfl
    · rcases List.mem_append.mp (hLiving.accounted fd' hOld)
        with hNode | hDev
      · exact List.mem_append_left _ hNode
      · rcases List.mem_filterMap.mp hDev with ⟨d, hd, hSome⟩
        have hOther : d.addr ≠ s.next :=
          (hSound.devsOld d (List.mem_append_right _ hd)).ne
        apply List.mem_append_right
        refine List.mem_filterMap.mpr ⟨d, ?_, hSome⟩
        refine List.mem_map.mpr ⟨d, ?_, if_neg hOther⟩
        exact List.mem_append_left _ hd
  refine ⟨⟨hAcc, hPrepared.living.handles, ?_⟩,
    hPrepared.fresh, ?_⟩
  · exact update_held (f := f) hPrepared.living
      (fun _ => rfl) (fun _ _ => rfl)
  · rcases hPrepared.there with ⟨d, hd, hAddr⟩
    refine ⟨_, update_dev (a := s.next) (f := f) hd, ?_⟩
    rw [if_pos hAddr]
    exact hAddr

theorem opening_living
    {r : Option Nat × Int}
    (hSound : Sound s)
    (hLiving : Living s)
    (hKept : LifeKept s (.open call))
    (hOpening : Opening s call r s') :
    Living s' := by
  cases hOpening with
  | noMemory _ => exact hLiving
  | noCards hNo hAll hAlloc =>
      exact (mOpenAll_prepared
        (withMulti_prepared hSound hLiving)
        (hKept hAlloc hNo) hAll).close
  | cards hNo hAll hAlloc =>
      apply finishOpen_living
      apply bound_prepared
      · exact mOpenAll_prepared
          (withMulti_prepared hSound hLiving)
          (hKept hAlloc hNo) hAll
      · exact withMulti_single hSound hAll
  | noCard _ _ =>
      exact (withSingle_prepared hSound hLiving).close
  | card _ hFd _ =>
      apply finishOpen_living
      exact openOne_prepared hSound hLiving hFd _

/- Selecting a descriptor moves a cursor at most. -/
theorem fdGet_living
    {dev : Nat} {selected : Option Selected}
    (hLiving : Living s)
    (hGet : fdGet s dev = some (selected, s')) :
    Living s' := by
  rcases fdGet_cases hGet with rfl | ⟨node, -, rfl⟩
  · exact hLiving
  · exact hLiving.update (fun _ => rfl) (fun _ _ _ => rfl)
      (fun _ _ => rfl)

/- A handle is given back, and its device is to be closed. -/
theorem closed_living
    (hLiving : Living s)
    (dev : Nat) :
    Living (cardClose (s.giveBack dev) dev) := by
  have hBack : Living (s.giveBack dev) := by
    refine ⟨hLiving.accounted, hLiving.handles.erase dev,
      fun h hMem => ?_⟩
    exact hLiving.held h (List.mem_of_mem_erase hMem)
  refine hBack.update (fun _ => rfl) (fun _ _ _ => rfl) ?_
  intro _ hMem
  exact (hLiving.handles.not_mem_erase hMem).elim

/- One step under which handles live on. -/
theorem living_step
    {event : LibEvent}
    (hSound : Sound s)
    (hLiving : Living s)
    (hStep : libStep s event s')
    (hKept : LifeKept s event.1) :
    Living s' := by
  cases libStep_outcome hStep with
  | opened hOpening =>
      exact opening_living hSound hLiving hKept hOpening
  | @closed dev _ _ _ => exact closed_living hLiving dev
  | @closedFreed dev hHandle hDev =>
      rcases hLiving.held dev hHandle with ⟨d, hd, rfl, -⟩
      rw [dev_found hSound hd] at hDev
      cases hDev
  | executed _ hGet =>
      exact (fdGet_living hLiving hGet).congr rfl rfl rfl rfl
        rfl
  | executeFreed _ _ => exact hLiving
  | done _ _ _ => exact hLiving.congr rfl rfl rfl rfl rfl
  | ioctlFreed _ _ => exact hLiving.congr rfl rfl rfl rfl rfl
  | retried _ hGet =>
      exact (fdGet_living hLiving hGet).congr rfl rfl rfl rfl
        rfl
  | busy _ => exact hLiving
  | failed _ => exact hLiving.congr rfl rfl rfl rfl rfl
  | finished _ => exact hLiving.congr rfl rfl rfl rfl rfl
  | @checkedMulti check s₁ _ hHandle =>
      exact checkMulti_living
        (inotifyHandle_sound hHandle hSound)
        (inotifyHandle_living hLiving hKept.1 hHandle)
        check.used
  | checkedSingle hNone _ =>
      exact shealthCheck_living hSound hLiving
        (hKept.2 hNone)
  | ignored => exact hLiving
  | noted _ _ _ => exact hLiving.congr rfl rfl rfl rfl rfl

------------------------------------------------------------
-- Runs
------------------------------------------------------------

theorem living_held
    (hSound : Sound s)
    (hLiving : Living s)
    {h : Nat}
    (hMem : h ∈ s.handles) :
    Held s h := by
  rcases hLiving.held h hMem with ⟨d, hd, hAddr, hState⟩
  refine ⟨d, hAddr, hState, ?_⟩
  rcases List.mem_append.mp hd with hMulti | hSingle
  · exact Or.inl ⟨hSound.multi d hMulti, hMulti⟩
  · exact Or.inr ⟨hSound.single d hSingle, hSingle⟩

/- A handle gets descriptors that are open. -/
theorem fdGet_live
    (hSound : Sound s)
    {h : Nat}
    (hHeld : Held s h) :
    ∃ selected s',
      fdGet s h = some (selected, s') ∧
        ∀ sel, selected = some sel → sel.fd ∈ s.fds := by
  rcases hHeld with
    ⟨d, rfl, -, ⟨hNo, hMulti⟩ | ⟨hNo, hSingle⟩⟩
  · have hDev :=
      dev_found hSound (List.mem_append_left _ hMulti)
    cases hPtr : d.mFdPtr with
    | none =>
        refine ⟨none, s, ?_, nofun⟩
        simp only [fdGet, hDev, hNo, if_true, fdMGetAndInc,
          hPtr]
    | some ptr =>
        rcases hSound.cursorIn d hMulti ptr hPtr with
          ⟨node, hNode, rfl⟩
        have hHere :
            (entryAt FdNode.addr s.fdMList
              node.addr).isSome :=
          entryAt_isSome hNode
        rcases Option.isSome_iff_exists.mp hHere with
          ⟨⟨x, next⟩, hEntry⟩
        have hLive :=
          hSound.list_open (entryAt_mem hEntry).1
        have hGet : fdGet s d.addr =
            some (some x.selected,
              s.update d.addr (fun d =>
                { d with
                  mFdPtr := (next.or s.fdMList.head?).map
                    FdNode.addr })) := by
          simp only [fdGet, hDev, hNo, if_true, fdMGetAndInc,
            hPtr, turn, hEntry, Option.map_some]
        refine ⟨_, _, hGet, ?_⟩
        rintro sel ⟨⟩
        exact hLive
  · have hDev :=
      dev_found hSound (List.mem_append_right _ hSingle)
    refine ⟨d.fdS.map (fun fd => ⟨fd, d.cardNo⟩), s, ?_, ?_⟩
    · simp only [fdGet, hDev, if_neg hNo]
    · intro sel hSel
      rcases Option.map_eq_some_iff.mp hSel with ⟨fd, hFd, rfl⟩
      exact hSound.dev_open hSingle hFd

/- Executes on a handle meet nothing that was released. -/
theorem ioctl_live
    (hSound : Sound s)
    {exec : Exec} {result : IoctlResult} {answer : Answer}
    (hHeld : Held s exec.dev)
    (hStep : stepExecute s exec result = some (answer, s')) :
    answer ≠ .freed ∧
      ∀ sel, answer = .got (some sel) → sel.fd ∈ s.fds := by
  rcases fdGet_live hSound hHeld with
    ⟨selected, s₁, hGet, hLive⟩
  have hDev : s.dev? exec.dev ≠ none := by
    rcases hHeld with ⟨d, hAddr, -, hIn⟩
    have hMem : d ∈ s.mDevs ++ s.sDevs := by
      rcases hIn with ⟨-, hMulti⟩ | ⟨-, hSingle⟩
      · exact List.mem_append_left _ hMulti
      · exact List.mem_append_right _ hSingle
    rw [← hAddr, dev_found hSound hMem]
    exact nofun
  unfold stepExecute at hStep
  cases result with
  | done =>
      cases hFd : exec.fd with
      | none => simp [hFd] at hStep
      | some fd =>
          cases hLeft : exec.left with
          | zero => simp [hFd, hLeft] at hStep
          | succ left =>
              simp only [hFd, hLeft, if_neg hDev] at hStep
              split at hStep
              · cases hStep
              · cases hStep
                exact ⟨nofun, nofun⟩
  | failed busy timeout =>
      simp only at hStep
      split at hStep
      · cases hStep
      cases hFound : s.dev? exec.dev with
      | none => exact (hDev hFound).elim
      | some d =>
          simp only [hFound, hGet] at hStep
          split at hStep
          · split at hStep
            · cases hStep
              exact ⟨nofun, nofun⟩
            · cases hStep
              refine ⟨nofun, fun sel hSel => ?_⟩
              exact hLive sel (Answer.got.inj hSel)
          · split at hStep
            · cases hStep
              exact ⟨nofun, nofun⟩
            · cases hStep
              exact ⟨nofun, nofun⟩

theorem lifetime_of_living
    (hSound : Sound s)
    (hLiving : Living s) :
    Lifetime s where
  held := fun _ hMem => living_held hSound hLiving hMem
  executes := fun _ hMem =>
    fdGet_live hSound (living_held hSound hLiving hMem)
  ioctls := fun _ _ _ _ hMem hStep =>
    ioctl_live hSound (living_held hSound hLiving hMem) hStep
  once := hSound.fds
  owners := by
    rw [List.perm_ext_iff_of_nodup hSound.fds
      hSound.ownedNodup]
    exact fun fd =>
      ⟨hLiving.accounted fd, hSound.ownedOpen fd⟩
  checksMulti := fun _ used _ hHandle =>
    strictMulti_eq (inotifyHandle_sound hHandle hSound) used
  checksSingle := fun used => strictSingle_eq hSound used

end Life

/-
  Where every node finds memory and the cards of handles for
  one card stay in use, handles live until they are closed.
-/
theorem lifetime_of_kept
    {trace : List LibEvent} {s : Library}
    (hRun : Run lifeStep Library.init trace s) :
    Lifetime s := by
  have hBoth := hRun.preserves
    (fun s => Sound s ∧ Living s)
    ⟨init_sound, init_living⟩
    (fun s event s' h hStep =>
      ⟨libStep_sound h.1 hStep.1,
        living_step h.1 h.2 hStep.1 hStep.2⟩)
  exact lifetime_of_living hBoth.1 hBoth.2

------------------------------------------------------------
-- A Handle That Is Freed
------------------------------------------------------------

/- One card is opened by itself. -/
def openSingle : Act :=
  .open (openWith 0 [] (some 3))

/- The state behind it, with a handle. -/
def singleCard : Library := Library.init.after openSingle

/- A health check that finds the card in use, or not. -/
def checkUsed (used : Bool) : Act :=
  .health { reopen := none, used := fun _ => used }

/-
  The card fails and the health thread frees the device that
  the application holds.
-/
theorem lifetime_fails :
    ¬∀ trace s, LibRun trace s → Lifetime s := by
  intro hAll
  have hOpened := LibRun.act Run.start openSingle rfl
  have hFailed := LibRun.act (s := singleCard) hOpened
    (checkUsed false) rfl
  have hHandle : (1 : Nat) ∈
      (singleCard.after (checkUsed false)).handles :=
    List.mem_singleton.mpr rfl
  rcases (hAll _ _ hFailed).held 1 hHandle with
    ⟨d, -, -, ⟨-, hMulti⟩ | ⟨-, hSingle⟩⟩
  · exact List.not_mem_nil hMulti
  · exact List.not_mem_nil hSingle

/- As long as the card is in use the handle stays. -/
theorem lifetime_used :
    Lifetime (singleCard.after (checkUsed true)) := by
  have hOpened : Run lifeStep Library.init
      ([] ++ [Library.init.event openSingle]) singleCard := by
    refine Run.next Run.start ⟨libStep_after rfl, ?_⟩
    intro _ hNo
    cases hNo
  refine lifetime_of_kept
    (Run.next (l := singleCard.event (checkUsed true)) hOpened
      ⟨libStep_after rfl, ?_⟩)
  refine ⟨fun _ _ hReopen => ?_, fun _ _ _ _ _ _ => rfl⟩
  cases hReopen

end Libcard
