import GenWqe.Lib.Sweep
import GenWqe.Card.Library

/-
  What every step of the card library keeps: nodes and
  devices that are told apart, descriptors with at most one
  owner, and cursors that point into the list.

  Key definitions include:
    * `Library.owned`
    * `Sound`

  Main results:
    * `mOpenAll_keeps`
    * `nodes_keep`
-/

namespace Libcard

------------------------------------------------------------
-- The Invariant
------------------------------------------------------------

/- The descriptors that nodes and devices hold. -/
def Library.owned (s : Library) : List Nat :=
  s.fdMList.map FdNode.mFd ++ s.sDevs.filterMap CardDev.fdS

/- The cursor of a device is at a node of the list. -/
def CursorIn (list : List FdNode) (dev : CardDev) : Prop :=
  ∀ ptr, dev.mFdPtr = some ptr →
    ∃ node ∈ list, node.addr = ptr

/- A device in use has no cursor only if there are no cards. -/
def CursorSet (list : List FdNode) (dev : CardDev) : Prop :=
  dev.devState = .devHaveFd → dev.mFdPtr = none → list = []

structure Sound (s : Library) : Prop where
  nodes : (s.fdMList.map FdNode.addr).Nodup
  nodesOld : ∀ node ∈ s.fdMList, node.addr < s.next
  devs : ((s.mDevs ++ s.sDevs).map CardDev.addr).Nodup
  devsOld : ∀ dev ∈ s.mDevs ++ s.sDevs, dev.addr < s.next
  multi : ∀ dev ∈ s.mDevs, dev.cardNo = genwqeCardRedundant
  single :
    ∀ dev ∈ s.sDevs, dev.cardNo ≠ genwqeCardRedundant
  fds : s.fds.Nodup
  ownedNodup : s.owned.Nodup
  ownedOpen : ∀ fd ∈ s.owned, fd ∈ s.fds
  cursorIn : ∀ dev ∈ s.mDevs, CursorIn s.fdMList dev
  cursorSet : ∀ dev ∈ s.mDevs, CursorSet s.fdMList dev

/- The invariant looks at these parts only. -/
theorem Sound.congr
    {s s' : Library}
    (hSound : Sound s)
    (hS : s'.sDevs = s.sDevs)
    (hM : s'.mDevs = s.mDevs)
    (hList : s'.fdMList = s.fdMList)
    (hFds : s'.fds = s.fds)
    (hNext : s'.next = s.next) :
    Sound s' := by
  have hOwned : s'.owned = s.owned := by
    unfold Library.owned
    rw [hList, hS]
  refine ⟨?_, ?_, ?_, ?_, ?_, ?_, ?_, ?_, ?_, ?_, ?_⟩
  · rw [hList]
    exact hSound.nodes
  · rw [hList, hNext]
    exact hSound.nodesOld
  · rw [hM, hS]
    exact hSound.devs
  · rw [hM, hS, hNext]
    exact hSound.devsOld
  · rw [hM]
    exact hSound.multi
  · rw [hS]
    exact hSound.single
  · rw [hFds]
    exact hSound.fds
  · rw [hOwned]
    exact hSound.ownedNodup
  · rw [hOwned, hFds]
    exact hSound.ownedOpen
  · rw [hM, hList]
    exact hSound.cursorIn
  · rw [hM, hList]
    exact hSound.cursorSet

theorem init_sound : Sound Library.init :=
  ⟨List.nodup_nil, by simp [Library.init], List.nodup_nil,
    by simp [Library.init], by simp [Library.init],
    by simp [Library.init], List.nodup_nil, List.nodup_nil,
    by simp [Library.init, Library.owned],
    by simp [Library.init], by simp [Library.init]⟩

section Parts

variable {s s' : Library}

theorem Sound.mDevs_nodup
    (hSound : Sound s) :
    (s.mDevs.map CardDev.addr).Nodup := by
  have hBoth := hSound.devs
  rw [List.map_append] at hBoth
  exact (List.nodup_append.mp hBoth).1

theorem Sound.sDevs_nodup
    (hSound : Sound s) :
    (s.sDevs.map CardDev.addr).Nodup := by
  have hBoth := hSound.devs
  rw [List.map_append] at hBoth
  exact (List.nodup_append.mp hBoth).2.1

/- No device is on both lists. -/
theorem Sound.devs_apart
    (hSound : Sound s)
    {d d' : CardDev}
    (hMulti : d ∈ s.mDevs)
    (hSingle : d' ∈ s.sDevs) :
    d.addr ≠ d'.addr := by
  have hBoth := hSound.devs
  rw [List.map_append] at hBoth
  exact (List.nodup_append.mp hBoth).2.2 _
    (List.mem_map_of_mem hMulti) _
    (List.mem_map_of_mem hSingle)

theorem Sound.list_open
    (hSound : Sound s)
    {node : FdNode}
    (hMem : node ∈ s.fdMList) :
    node.mFd ∈ s.fds :=
  hSound.ownedOpen _ (List.mem_append_left _
    (List.mem_map_of_mem hMem))

theorem Sound.dev_open
    (hSound : Sound s)
    {dev : CardDev} {fd : Nat}
    (hMem : dev ∈ s.sDevs)
    (hFd : dev.fdS = some fd) :
    fd ∈ s.fds :=
  hSound.ownedOpen _ (List.mem_append_right _
    (List.mem_filterMap.mpr ⟨dev, hMem, hFd⟩))

/- Lists of nodes with distinct keys: equal by their key. -/
theorem eq_of_key
    {α κ : Type*}
    {key : α → κ} {l : List α}
    (hNodup : (l.map key).Nodup)
    {x y : α}
    (hx : x ∈ l)
    (hy : y ∈ l)
    (hKey : key x = key y) :
    x = y :=
  List.inj_on_of_nodup_map hNodup hx hy hKey

/- A device that was not freed is found by its address. -/
theorem dev_found
    (hSound : Sound s)
    {d : CardDev}
    (hMem : d ∈ s.mDevs ++ s.sDevs) :
    s.dev? d.addr = some d := by
  unfold Library.dev?
  cases hFind :
      (s.mDevs ++ s.sDevs).find?
        (fun d' => d'.addr = d.addr) with
  | none =>
      have hNone := List.find?_eq_none.mp hFind d hMem
      simp at hNone
  | some d' =>
      have hAddr : d'.addr = d.addr := by
        simpa using List.find?_some hFind
      rw [eq_of_key hSound.devs
        (List.mem_of_find?_eq_some hFind) hMem hAddr]

theorem dev_mem
    {a : Nat} {d : CardDev}
    (hDev : s.dev? a = some d) :
    d ∈ s.mDevs ++ s.sDevs ∧ d.addr = a := by
  refine ⟨List.mem_of_find?_eq_some hDev, ?_⟩
  simpa using List.find?_some hDev

end Parts

------------------------------------------------------------
-- Adding and Removing Nodes
------------------------------------------------------------

section Nodes

variable {s s' : Library}

/- Where the head pointers lead. -/
theorem headAll_cursorIn
    (s : Library)
    (dev : CardDev) :
    CursorIn s.fdMList { dev with mFdPtr := s.fdMHead } := by
  intro ptr hPtr
  rcases Option.map_eq_some_iff.mp hPtr with
    ⟨node, hHead, hAddr⟩
  exact ⟨node, List.mem_of_head? hHead, hAddr⟩

theorem headAll_cursorSet
    (s : Library)
    (dev : CardDev) :
    CursorSet s.fdMList { dev with mFdPtr := s.fdMHead } := by
  intro _ hPtr
  exact List.head?_eq_none_iff.mp
    (Option.map_eq_none_iff.mp hPtr)

/- Setting cursors leaves the addresses alone. -/
theorem map_cursor_addr
    (devs : List CardDev)
    (f : CardDev → Option Nat) :
    (devs.map (fun d => { d with mFdPtr := f d })).map
        CardDev.addr =
      devs.map CardDev.addr := by
  rw [List.map_map]
  rfl

/-
  The state behind `__fd_m_head_all` where the list has just
  changed: the cursors need not have been right.
-/
theorem headAll_sound
    (hNodes : (s.fdMList.map FdNode.addr).Nodup)
    (hNodesOld : ∀ node ∈ s.fdMList, node.addr < s.next)
    (hDevs :
      ((s.mDevs ++ s.sDevs).map CardDev.addr).Nodup)
    (hDevsOld :
      ∀ dev ∈ s.mDevs ++ s.sDevs, dev.addr < s.next)
    (hMulti :
      ∀ dev ∈ s.mDevs, dev.cardNo = genwqeCardRedundant)
    (hSingle :
      ∀ dev ∈ s.sDevs, dev.cardNo ≠ genwqeCardRedundant)
    (hFds : s.fds.Nodup)
    (hOwned : s.owned.Nodup)
    (hOpen : ∀ fd ∈ s.owned, fd ∈ s.fds) :
    Sound (fdMHeadAll s) := by
  refine ⟨hNodes, hNodesOld, ?_, ?_, ?_, hSingle, hFds,
    hOwned, hOpen, ?_, ?_⟩
  · change ((s.mDevs.map _ ++ s.sDevs).map _).Nodup
    rw [List.map_append, map_cursor_addr, ← List.map_append]
    exact hDevs
  · intro dev hMem
    rcases List.mem_append.mp hMem with hM | hS
    · rcases List.mem_map.mp hM with ⟨d, hd, rfl⟩
      exact hDevsOld d (List.mem_append_left _ hd)
    · exact hDevsOld dev (List.mem_append_right _ hS)
  · intro dev hMem
    rcases List.mem_map.mp hMem with ⟨d, hd, rfl⟩
    exact hMulti d hd
  · intro dev hMem
    rcases List.mem_map.mp hMem with ⟨d, -, rfl⟩
    exact headAll_cursorIn s d
  · intro dev hMem
    rcases List.mem_map.mp hMem with ⟨d, -, rfl⟩
    exact headAll_cursorSet s d

/- A new node for a descriptor that was not in use. -/
theorem fdMAdd_sound
    {s₁ : Library} {fd : Nat}
    (hSound : Sound s)
    (hOpen : s.openFd fd = some s₁)
    (card : CardNo)
    (alloc : Bool) :
    Sound (fdMAdd s₁ fd card alloc) := by
  unfold Library.openFd at hOpen
  split at hOpen
  · cases hOpen
  rename_i hFresh
  cases hOpen
  have hNew : fd ∉ s.owned :=
    fun hMem => hFresh (hSound.ownedOpen fd hMem)
  let new : List FdNode :=
    if alloc then [⟨s.next, card, fd⟩] else []
  let s₂ : Library :=
    { s with
      fds := fd :: s.fds
      fdMList := s.fdMList ++ new
      next := s.next + 1
      changes := s.changes + new.length }
  have hNewMem : ∀ node ∈ new,
      node.addr = s.next ∧ node.mFd = fd := by
    intro node hMem
    cases alloc with
    | false => exact (List.not_mem_nil hMem).elim
    | true =>
        rw [List.mem_singleton.mp hMem]
        exact ⟨rfl, rfl⟩
  have hNodes : (s₂.fdMList.map FdNode.addr).Nodup := by
    change ((s.fdMList ++ new).map _).Nodup
    rw [List.map_append, List.nodup_append]
    refine ⟨hSound.nodes, ?_, ?_⟩
    · cases alloc with
      | false => exact List.nodup_nil
      | true => exact List.nodup_singleton _
    · intro a ha b hb
      rcases List.mem_map.mp ha with ⟨node, hNode, rfl⟩
      rcases List.mem_map.mp hb with ⟨node', hNode', rfl⟩
      rw [(hNewMem node' hNode').1]
      exact (hSound.nodesOld node hNode).ne
  have hNodesOld : ∀ node ∈ s₂.fdMList,
      node.addr < s₂.next := by
    intro node hMem
    rcases List.mem_append.mp hMem with hOld | hHere
    · exact (hSound.nodesOld node hOld).trans
        (Nat.lt_succ_self _)
    · rw [(hNewMem node hHere).1]
      exact Nat.lt_succ_self _
  have hDevsOld : ∀ dev ∈ s₂.mDevs ++ s₂.sDevs,
      dev.addr < s₂.next :=
    fun dev hMem => (hSound.devsOld dev hMem).trans
      (Nat.lt_succ_self _)
  have hOwnedEq : s₂.owned =
      s.fdMList.map FdNode.mFd ++
        (new.map FdNode.mFd ++
          s.sDevs.filterMap CardDev.fdS) := by
    change (s.fdMList ++ new).map _ ++ _ = _
    rw [List.map_append, List.append_assoc]
  have hPerm : s₂.owned.Perm
      (new.map FdNode.mFd ++ s.owned) := by
    rw [hOwnedEq]
    exact (List.perm_append_comm_assoc _ _ _)
  have hOwned : s₂.owned.Nodup := by
    rw [hPerm.nodup_iff]
    cases alloc with
    | false => exact hSound.ownedNodup
    | true =>
        exact List.nodup_cons.mpr
          ⟨hNew, hSound.ownedNodup⟩
  have hOpenAll : ∀ fd' ∈ s₂.owned, fd' ∈ s₂.fds := by
    intro fd' hMem
    rcases List.mem_append.mp (hPerm.mem_iff.mp hMem) with
      hHere | hOld
    · rcases List.mem_map.mp hHere with ⟨node, hNode, rfl⟩
      rw [(hNewMem node hNode).2]
      exact List.mem_cons_self
    · exact List.mem_cons_of_mem _
        (hSound.ownedOpen fd' hOld)
  have hFds : s₂.fds.Nodup :=
    List.nodup_cons.mpr ⟨hFresh, hSound.fds⟩
  change Sound (if s.fdMList = [] then fdMHeadAll s₂ else s₂)
  split
  · exact headAll_sound hNodes hNodesOld hSound.devs hDevsOld
      hSound.multi hSound.single hFds hOwned hOpenAll
  · rename_i hSome
    refine ⟨hNodes, hNodesOld, hSound.devs, hDevsOld,
      hSound.multi, hSound.single, hFds, hOwned, hOpenAll,
      ?_, ?_⟩
    · intro dev hMem ptr hPtr
      rcases hSound.cursorIn dev hMem ptr hPtr with
        ⟨node, hNode, hAddr⟩
      exact ⟨node, List.mem_append_left _ hNode, hAddr⟩
    · intro dev hMem hState hPtr
      exact (hSome (hSound.cursorSet dev hMem hState
        hPtr)).elim

/- The descriptors that remain on the list. -/
theorem eraseP_mFd
    (l : List FdNode)
    (fd : Nat) :
    (l.eraseP (fun node => node.mFd == fd)).map FdNode.mFd =
      (l.map FdNode.mFd).erase fd := by
  rw [List.erase_eq_eraseP, List.eraseP_map]
  congr 2
  funext node
  exact Bool.beq_comm

/- What is left when the node with a descriptor is gone. -/
theorem eraseP_owned
    {node : FdNode}
    (hMem : node ∈ s.fdMList) :
    (s.fdMList.eraseP
          (fun n => n.mFd == node.mFd)).map FdNode.mFd ++
        s.sDevs.filterMap CardDev.fdS =
      s.owned.erase node.mFd := by
  unfold Library.owned
  rw [List.erase_append_left _ (List.mem_map_of_mem hMem),
    eraseP_mFd]

theorem erase_open
    (hSound : Sound s)
    (fd : Nat) :
    ∀ fd' ∈ s.owned.erase fd, fd' ∈ s.fds.erase fd := by
  intro fd' hMem
  have hNe : fd' ≠ fd := by
    rintro rfl
    exact (hSound.ownedNodup.not_mem_erase) hMem
  exact (List.mem_erase_of_ne hNe).mpr
    (hSound.ownedOpen fd' (List.mem_of_mem_erase hMem))

/- A node is removed and its descriptor closed. -/
theorem dropNode_sound
    (hSound : Sound s)
    {node : FdNode}
    (hMem : node ∈ s.fdMList) :
    Sound (dropNode s node) := by
  let s₁ : Library :=
    { s with
      fdMList :=
        s.fdMList.eraseP (fun n => n.mFd == node.mFd)
      fds := s.fds.erase node.mFd }
  have hSub : List.Sublist s₁.fdMList s.fdMList :=
    List.eraseP_sublist
  have hOwned : s₁.owned = s.owned.erase node.mFd :=
    eraseP_owned hMem
  have hHead : Sound (fdMHeadAll s₁) := by
    refine headAll_sound
      (hSound.nodes.sublist (hSub.map _))
      (fun n hn => hSound.nodesOld n (hSub.subset hn))
      hSound.devs hSound.devsOld hSound.multi hSound.single
      (hSound.fds.erase _) ?_ ?_
    · rw [hOwned]
      exact hSound.ownedNodup.erase _
    · rw [hOwned]
      exact erase_open hSound _
  exact hHead.congr rfl rfl rfl rfl rfl

/- The same without any device on the list. -/
theorem closeNode_sound
    (hSound : Sound s)
    (hNone : s.mDevs = [])
    {node : FdNode}
    (hMem : node ∈ s.fdMList) :
    Sound (closeNode s node) := by
  have hDrop := dropNode_sound hSound hMem
  refine hDrop.congr rfl ?_ rfl rfl rfl
  change s.mDevs = s.mDevs.map _
  rw [hNone]
  rfl

end Nodes

------------------------------------------------------------
-- Opening and Checking All Cards
------------------------------------------------------------

/-
  Work on the list of descriptors: the devices stay, up to
  their cursors, and so does what the applications hold.
-/
structure ListWork (s s' : Library) : Prop where
  sDevs : s'.sDevs = s.sDevs
  mDevs :
    ∃ f : CardDev → Option Nat,
      s'.mDevs =
        s.mDevs.map (fun d => { d with mFdPtr := f d })
  handles : s'.handles = s.handles
  running : s'.running = s.running
  watching : s'.watching = s.watching
  next : s.next ≤ s'.next
  slot : s'.ld.inotifyCard = s.ld.inotifyCard
  tid : s'.ld.inotifyTid = s.ld.inotifyTid

theorem map_cursor_self
    (devs : List CardDev) :
    devs.map (fun d => { d with mFdPtr := d.mFdPtr }) =
      devs :=
  List.map_id devs

theorem ListWork.of_same
    {s s' : Library}
    (hS : s'.sDevs = s.sDevs)
    (hM : s'.mDevs = s.mDevs)
    (hHandles : s'.handles = s.handles)
    (hRunning : s'.running = s.running)
    (hWatching : s'.watching = s.watching)
    (hNext : s.next ≤ s'.next)
    (hSlot : s'.ld.inotifyCard = s.ld.inotifyCard)
    (hTid : s'.ld.inotifyTid = s.ld.inotifyTid) :
    ListWork s s' :=
  ⟨hS, ⟨CardDev.mFdPtr, by rw [hM, map_cursor_self]⟩,
    hHandles, hRunning, hWatching, hNext, hSlot, hTid⟩

theorem ListWork.refl (s : Library) : ListWork s s :=
  ListWork.of_same rfl rfl rfl rfl rfl le_rfl rfl rfl

theorem ListWork.trans
    {s s₁ s₂ : Library}
    (hFirst : ListWork s s₁)
    (hSecond : ListWork s₁ s₂) :
    ListWork s s₂ := by
  rcases hFirst with
    ⟨hS, ⟨f, hM⟩, hHandles, hRun, hWatch, hNext, hSlot, hTid⟩
  rcases hSecond with
    ⟨hS', ⟨f', hM'⟩, hHandles', hRun', hWatch', hNext',
      hSlot', hTid'⟩
  refine ⟨hS'.trans hS,
    ⟨fun d => f' { d with mFdPtr := f d }, ?_⟩,
    hHandles'.trans hHandles, hRun'.trans hRun,
    hWatch'.trans hWatch, hNext.trans hNext',
    hSlot'.trans hSlot, hTid'.trans hTid⟩
  rw [hM', hM, List.map_map]
  rfl

section Work

variable {s s' : Library}

theorem headAll_work (s : Library) :
    ListWork s (fdMHeadAll s) :=
  ⟨rfl, ⟨fun _ => s.fdMHead, rfl⟩, rfl, rfl, rfl, le_rfl,
    rfl, rfl⟩

theorem fdMAdd_work
    (s : Library)
    (fd : Nat)
    (card : CardNo)
    (alloc : Bool) :
    ListWork s (fdMAdd s fd card alloc) := by
  unfold fdMAdd
  simp only
  have hAdd : ∀ s' : Library,
      s'.sDevs = s.sDevs → s'.mDevs = s.mDevs →
      s'.handles = s.handles → s'.running = s.running →
      s'.watching = s.watching → s'.next = s.next + 1 →
      s'.ld = s.ld → ListWork s s' := by
    intro s' hS hM hH hR hW hN hLd
    exact ListWork.of_same hS hM hH hR hW
      (by omega) (by rw [hLd]) (by rw [hLd])
  split
  · refine ListWork.trans ?_ (headAll_work _)
    exact hAdd _ rfl rfl rfl rfl rfl rfl rfl
  · exact hAdd _ rfl rfl rfl rfl rfl rfl rfl

theorem openFd_work
    {fd : Nat}
    (hOpen : s.openFd fd = some s') :
    ListWork s s' := by
  unfold Library.openFd at hOpen
  split at hOpen
  · cases hOpen
  · cases hOpen
    exact ListWork.of_same rfl rfl rfl rfl rfl le_rfl rfl rfl

/- What an attempt to add a card can do. -/
theorem mOpenAdd_cases
    {card : CardNo} {attempt : DevOpen} {ok : Bool}
    (hAdd : mOpenAdd s card attempt = some (ok, s')) :
    (ok = false ∧ s' = s ∧ attempt = .failed) ∨
      ∃ fd alloc s₁,
        ok = true ∧ attempt = .opened fd alloc ∧
          s.openFd fd = some s₁ ∧
          s' = fdMAdd s₁ fd card alloc := by
  cases attempt with
  | failed =>
      cases hAdd
      exact Or.inl ⟨rfl, rfl, rfl⟩
  | opened fd alloc =>
      rcases Option.map_eq_some_iff.mp hAdd with
        ⟨s₁, hOpen, hEq⟩
      cases hEq
      exact Or.inr ⟨fd, alloc, s₁, rfl, rfl, hOpen, rfl⟩

theorem opened_sound
    (hSound : Sound s)
    (card : CardNo) :
    Sound (s.opened card) :=
  hSound.congr rfl rfl rfl rfl rfl

theorem opened_work
    (s : Library)
    (card : CardNo) :
    ListWork s (s.opened card) :=
  ListWork.of_same rfl rfl rfl rfl rfl le_rfl rfl rfl

/-
  What one entry of `/dev` can do: nothing, or open a card
  that is closed.
-/
theorem mOpenEntry_cases
    {entry : DirEntry} {n : Nat}
    (hEntry : mOpenEntry s entry = some (n, s')) :
    s' = s ∨
      ∃ card fd alloc s₁,
        entry.card = some card ∧
          entry.attempt = some (.opened fd alloc) ∧
          s.ld.genwqeState card = .cardClosed ∧
          s.openFd fd = some s₁ ∧
          s' = (fdMAdd s₁ fd card alloc).opened card := by
  unfold mOpenEntry at hEntry
  cases hCard : entry.card with
  | none =>
      simp only [hCard] at hEntry
      split at hEntry
      · cases hEntry
        exact Or.inl rfl
      · cases hEntry
  | some card =>
      simp only [hCard] at hEntry
      cases hState : s.ld.genwqeState card with
      | cardOpen =>
          cases hAttempt : entry.attempt with
          | some a => simp [hState, hAttempt] at hEntry
          | none =>
              simp only [hState, hAttempt] at hEntry
              cases hEntry
              exact Or.inl rfl
      | cardClosed =>
          cases hAttempt : entry.attempt with
          | none => simp [hState, hAttempt] at hEntry
          | some a =>
              simp only [hState, hAttempt] at hEntry
              rcases Option.map_eq_some_iff.mp hEntry with
                ⟨⟨ok, s₂⟩, hAdd, hEq⟩
              rcases mOpenAdd_cases hAdd with
                ⟨rfl, rfl, -⟩ |
                  ⟨fd, alloc, s₁, rfl, rfl, hOpen, rfl⟩
              · cases hEq
                exact Or.inl rfl
              · cases hEq
                exact Or.inr ⟨card, fd, alloc, s₁, rfl, rfl,
                  hState, hOpen, rfl⟩

/-
  What every turn of the loop over the entries of `/dev`
  keeps, the whole loop keeps.
-/
theorem mOpenEntries_keeps
    (P : Library → Prop)
    {entries : List DirEntry}
    (hStep :
      ∀ s card fd alloc s₁,
        P s →
          (∃ entry ∈ entries,
            entry.card = some card ∧
              entry.attempt = some (.opened fd alloc)) →
            s.ld.genwqeState card = .cardClosed →
              s.openFd fd = some s₁ →
                P ((fdMAdd s₁ fd card alloc).opened card))
    {n : Nat}
    (hEntries : mOpenEntries s entries = some (n, s'))
    (hP : P s) :
    P s' := by
  induction entries generalizing s n with
  | nil =>
      cases hEntries
      exact hP
  | cons entry rest ih =>
      rw [mOpenEntries] at hEntries
      rcases Option.bind_eq_some_iff.mp hEntries with
        ⟨⟨m, s₁⟩, hEntry, hRest⟩
      rcases Option.map_eq_some_iff.mp hRest with
        ⟨⟨m', s₂⟩, hRest', hEq⟩
      cases hEq
      refine ih (fun s card fd alloc s₁ h hIn =>
        hStep s card fd alloc s₁ h
          (hIn.imp (fun e he =>
            ⟨List.mem_cons_of_mem _ he.1, he.2⟩)))
        hRest' ?_
      rcases mOpenEntry_cases hEntry with hSame |
        ⟨card, fd, alloc, s₂', hCard, hAttempt, hState,
          hOpen, rfl⟩
      · rw [hSame]
        exact hP
      · exact hStep s card fd alloc s₂' hP
          ⟨entry, List.mem_cons_self, hCard, hAttempt⟩
          hState hOpen

/- The same for `__m_open_all`. -/
theorem mOpenAll_keeps
    (P : Library → Prop)
    {entries : Option (List DirEntry)}
    (hStep :
      ∀ s card fd alloc s₁,
        P s →
          (∃ entry ∈ entries.getD [],
            entry.card = some card ∧
              entry.attempt = some (.opened fd alloc)) →
            s.ld.genwqeState card = .cardClosed →
              s.openFd fd = some s₁ →
                P ((fdMAdd s₁ fd card alloc).opened card))
    {n : Nat}
    (hAll : mOpenAll s entries = some (n, s'))
    (hP : P s) :
    P s' := by
  cases entries with
  | none =>
      cases hAll
      exact hP
  | some entries =>
      exact mOpenEntries_keeps P hStep hAll hP

theorem mOpenAll_sound
    {entries : Option (List DirEntry)} {n : Nat}
    (hAll : mOpenAll s entries = some (n, s'))
    (hSound : Sound s) :
    Sound s' :=
  mOpenAll_keeps Sound
    (fun _ card _ alloc _ h _ _ hOpen =>
      opened_sound (fdMAdd_sound h hOpen card alloc) card)
    hAll hSound

theorem mOpenAll_work
    {entries : Option (List DirEntry)} {n : Nat}
    (hAll : mOpenAll s entries = some (n, s')) :
    ListWork s s' :=
  mOpenAll_keeps (ListWork s)
    (fun _ card fd alloc _ h _ _ hOpen =>
      ((h.trans (openFd_work hOpen)).trans
        (fdMAdd_work _ fd card alloc)).trans
          (opened_work _ card))
    hAll (ListWork.refl s)

/- What `__inotify_handle` can do. -/
theorem inotifyHandle_cases
    {reopen : Option DevOpen}
    (hHandle : inotifyHandle s reopen = some s') :
    (s' = s ∧
        ((s.ld.inotifyEvent = .inotifyIdle ∧
            reopen = none) ∨
          (s.ld.inotifyEvent = .inotifyAttrib ∧
            reopen = some .failed))) ∨
      ∃ fd alloc s₁,
        s.ld.inotifyEvent = .inotifyAttrib ∧
          reopen = some (.opened fd alloc) ∧
          s.openFd fd = some s₁ ∧
          s' =
            { (fdMAdd s₁ fd s.ld.inotifyCard alloc).opened
                s.ld.inotifyCard with
              ld :=
                { ((fdMAdd s₁ fd s.ld.inotifyCard
                    alloc).opened s.ld.inotifyCard).ld with
                  inotifyEvent := .inotifyIdle } } := by
  unfold inotifyHandle at hHandle
  cases hEvent : s.ld.inotifyEvent with
  | inotifyIdle =>
      cases reopen with
      | some a => simp [hEvent] at hHandle
      | none =>
          simp only [hEvent] at hHandle
          cases hHandle
          exact Or.inl ⟨rfl, Or.inl ⟨rfl, rfl⟩⟩
  | inotifyAttrib =>
      cases reopen with
      | none => simp [hEvent] at hHandle
      | some a =>
          simp only [hEvent] at hHandle
          rcases Option.map_eq_some_iff.mp hHandle with
            ⟨⟨ok, s₂⟩, hAdd, hEq⟩
          rcases mOpenAdd_cases hAdd with
            ⟨rfl, rfl, rfl⟩ |
              ⟨fd, alloc, s₁, rfl, rfl, hOpen, rfl⟩
          · cases hEq
            exact Or.inl ⟨rfl, Or.inr ⟨rfl, rfl⟩⟩
          · exact Or.inr ⟨fd, alloc, s₁, rfl, rfl, hOpen,
              hEq.symm⟩

theorem inotifyHandle_sound
    {reopen : Option DevOpen}
    (hHandle : inotifyHandle s reopen = some s')
    (hSound : Sound s) :
    Sound s' := by
  rcases inotifyHandle_cases hHandle with ⟨rfl, -⟩ |
    ⟨fd, alloc, s₁, -, -, hOpen, rfl⟩
  · exact hSound
  · exact (fdMAdd_sound hSound hOpen
      s.ld.inotifyCard alloc).congr rfl rfl rfl rfl rfl

theorem inotifyHandle_work
    {reopen : Option DevOpen}
    (hHandle : inotifyHandle s reopen = some s') :
    ListWork s s' := by
  rcases inotifyHandle_cases hHandle with ⟨rfl, -⟩ |
    ⟨fd, alloc, s₁, -, -, hOpen, rfl⟩
  · exact ListWork.refl _
  · refine (((openFd_work hOpen).trans
      (fdMAdd_work s₁ fd s.ld.inotifyCard alloc)).trans
        (opened_work _ s.ld.inotifyCard)).trans ?_
    exact ListWork.of_same rfl rfl rfl rfl rfl le_rfl rfl rfl

end Work

------------------------------------------------------------
-- The Loops of the Health Check
------------------------------------------------------------

section Loops

variable {s : Library}

/-
  What one turn over the nodes of a list keeps, a loop over
  them keeps, as long as each turn leaves those behind it on
  the list.
-/
theorem nodes_keep
    (P : Library → Prop)
    (f : Library → FdNode → Library)
    (hStep :
      ∀ s node, P s → node ∈ s.fdMList → P (f s node))
    (hRest :
      ∀ s node node',
        P s → node ∈ s.fdMList → node' ∈ s.fdMList →
          node'.addr ≠ node.addr →
            node' ∈ (f s node).fdMList)
    (nodes : List FdNode)
    (hNodup : (nodes.map FdNode.addr).Nodup)
    (hIn : ∀ node ∈ nodes, node ∈ s.fdMList)
    (hP : P s) :
    P (nodes.foldl f s) :=
  sweep_keeps P nodes (fun s node _ => hStep s node) hRest
    hNodup hIn hP

/- Other nodes stay on the list when one is removed. -/
theorem eraseP_others
    (hSound : Sound s)
    {node node' : FdNode}
    (hMem : node ∈ s.fdMList)
    (hMem' : node' ∈ s.fdMList)
    (hOther : node'.addr ≠ node.addr) :
    node' ∈
      s.fdMList.eraseP (fun n => n.mFd == node.mFd) := by
  have hFds : (s.fdMList.map FdNode.mFd).Nodup :=
    (List.nodup_append.mp hSound.ownedNodup).1
  refine (List.mem_eraseP_of_neg ?_).mpr hMem'
  intro hSame
  have hFd : node'.mFd = node.mFd := by simpa using hSame
  exact hOther (congrArg FdNode.addr
    (eq_of_key hFds hMem' hMem hFd))

/- Which nodes the turns of the check loop leave. -/
theorem checkNode_others
    (hSound : Sound s)
    (used : Nat → Bool)
    {node node' : FdNode}
    (hMem : node ∈ s.fdMList)
    (hMem' : node' ∈ s.fdMList)
    (hOther : node'.addr ≠ node.addr) :
    node' ∈ (checkNode used s node).fdMList := by
  unfold checkNode
  split
  · exact eraseP_others hSound hMem hMem' hOther
  · exact hMem'

theorem checkNode_sound
    (hSound : Sound s)
    (used : Nat → Bool)
    {node : FdNode}
    (hMem : node ∈ s.fdMList) :
    Sound (checkNode used s node) := by
  unfold checkNode
  split
  · exact dropNode_sound hSound hMem
  · exact hSound

theorem checkNode_work
    (used : Nat → Bool)
    (s : Library)
    (node : FdNode) :
    ListWork s (checkNode used s node) := by
  unfold checkNode
  split
  · have hDel : ListWork s (fdMDel s node.mFd) :=
      ListWork.of_same rfl rfl rfl rfl rfl le_rfl rfl rfl
    refine (hDel.trans (headAll_work _)).trans ?_
    exact ListWork.of_same rfl rfl rfl rfl rfl le_rfl rfl rfl
  · exact ListWork.refl s

theorem closeNode_work
    (s : Library)
    (node : FdNode) :
    ListWork s (closeNode s node) :=
  ListWork.of_same rfl rfl rfl rfl rfl le_rfl rfl rfl

end Loops

end Libcard
