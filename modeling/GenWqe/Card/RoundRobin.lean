import GenWqe.Card.Steps

/-
  The cursors of the devices for all cards, and the order in
  which one of them selects its cards.

  Key definitions include:
    * `selections`
    * `Still`

  Main results:
    * `libStep_still`
    * `roundRobin`
-/

namespace Libcard

------------------------------------------------------------
-- Selections
------------------------------------------------------------

/- The card that a step selected through a device. -/
def LibEvent.selection
    (dev : Nat)
    (event : LibEvent) : Option Selected :=
  match event with
  | (.execute d _, .got selected) =>
      if d = dev then selected else none
  | (.ioctl exec _, .got selected) =>
      if exec.dev = dev then selected else none
  | _ => none

/- The cards selected through a device, in their order. -/
def selections
    (dev : Nat)
    (trace : List LibEvent) : List Selected :=
  trace.filterMap (LibEvent.selection dev)

theorem selections_concat
    (dev : Nat)
    (trace : List LibEvent)
    (event : LibEvent) :
    selections dev (trace ++ [event]) =
      selections dev trace ++
        (event.selection dev).toList := by
  unfold selections
  rw [List.filterMap_append]
  cases hSel : event.selection dev with
  | none => simp [hSel]
  | some selected => simp [hSel]

------------------------------------------------------------
-- Cursors That Stand Still
------------------------------------------------------------

/-
  Unless nodes are inserted or removed, the list and the
  cursor of a device stay as they are.
-/
structure Still (dev : Nat) (s s' : Library) : Prop where
  next : s.next ≤ s'.next
  changes : s.changes ≤ s'.changes
  list : s'.changes = s.changes → s'.fdMList = s.fdMList
  cursor :
    s'.changes = s.changes →
      ∀ d' ∈ s'.mDevs, d'.addr = dev →
        ∃ d ∈ s.mDevs,
          d.addr = dev ∧ d.mFdPtr = d'.mFdPtr
  single :
    ∀ d' ∈ s'.sDevs, d'.addr = dev →
      ∃ d ∈ s.sDevs, d.addr = dev

section Stillness

variable {dev : Nat} {s s' s₁ s₂ : Library}

theorem Still.refl (dev : Nat) (s : Library) :
    Still dev s s :=
  ⟨le_rfl, le_rfl, fun _ => rfl,
    fun _ d hd hAddr => ⟨d, hd, hAddr, rfl⟩,
    fun d hd hAddr => ⟨d, hd, hAddr⟩⟩

theorem Still.trans
    (hFirst : Still dev s s₁)
    (hSecond : Still dev s₁ s₂) :
    Still dev s s₂ := by
  have hBoth : s₂.changes = s.changes →
      s₁.changes = s.changes ∧ s₂.changes = s₁.changes := by
    intro hSame
    have hLe := hFirst.changes
    have hLe' := hSecond.changes
    omega
  refine ⟨hFirst.next.trans hSecond.next,
    hFirst.changes.trans hSecond.changes,
    fun hSame => ?_, fun hSame d hd hAddr => ?_,
    fun d hd hAddr => ?_⟩
  · rw [hSecond.list (hBoth hSame).2,
      hFirst.list (hBoth hSame).1]
  · rcases hSecond.cursor (hBoth hSame).2 d hd hAddr with
      ⟨d₁, hd₁, hAddr₁, hPtr₁⟩
    rcases hFirst.cursor (hBoth hSame).1 d₁ hd₁ hAddr₁ with
      ⟨d₀, hd₀, hAddr₀, hPtr₀⟩
    exact ⟨d₀, hd₀, hAddr₀, hPtr₀.trans hPtr₁⟩
  · rcases hSecond.single d hd hAddr with ⟨d₁, hd₁, hAddr₁⟩
    exact hFirst.single d₁ hd₁ hAddr₁

/- Nothing but other data changes. -/
theorem Still.of_same
    (hNext : s'.next = s.next)
    (hChanges : s'.changes = s.changes)
    (hList : s'.fdMList = s.fdMList)
    (hM : s'.mDevs = s.mDevs)
    (hS : s'.sDevs = s.sDevs) :
    Still dev s s' :=
  ⟨hNext.ge, hChanges.ge, fun _ => hList,
    fun _ d hd hAddr => ⟨d, hM ▸ hd, hAddr, rfl⟩,
    fun d hd hAddr => ⟨d, hS ▸ hd, hAddr⟩⟩

/- Nodes are inserted or removed. -/
theorem Still.of_change
    (hNext : s.next ≤ s'.next)
    (hChanges : s.changes < s'.changes)
    (hS : s'.sDevs = s.sDevs) :
    Still dev s s' :=
  ⟨hNext, hChanges.le, fun hSame => (hChanges.ne' hSame).elim,
    fun hSame => (hChanges.ne' hSame).elim,
    fun d hd hAddr => ⟨d, hS ▸ hd, hAddr⟩⟩

/- A device changes, but not its cursor. -/
theorem update_still
    {a : Nat} {f : CardDev → CardDev}
    (hAddr : ∀ d, (f d).addr = d.addr)
    (hPtr : ∀ d, a = dev → (f d).mFdPtr = d.mFdPtr) :
    Still dev s (s.update a f) := by
  refine ⟨le_rfl, le_rfl, fun _ => rfl,
    fun _ d hd hHere => ?_, fun d hd hHere => ?_⟩
  · rcases mem_atDev hd with
      ⟨d', hd', ⟨hAt, rfl⟩ | ⟨-, rfl⟩⟩
    · rw [hAddr] at hHere
      exact ⟨d', hd', hHere,
        (hPtr d' (hAt.symm.trans hHere)).symm⟩
    · exact ⟨_, hd', hHere, rfl⟩
  · rcases mem_atDev hd with ⟨d', hd', ⟨-, rfl⟩ | ⟨-, rfl⟩⟩
    · rw [hAddr] at hHere
      exact ⟨d', hd', hHere⟩
    · exact ⟨_, hd', hHere⟩

/- The list is empty, so there are no cursors to move. -/
theorem headAll_still
    (hSound : Sound s)
    (hNone : s.fdMList = []) :
    Still dev s (fdMHeadAll s) := by
  refine ⟨le_rfl, le_rfl, fun _ => rfl,
    fun _ d hd hHere => ?_, fun d hd hHere => ⟨d, hd, hHere⟩⟩
  rcases List.mem_map.mp hd with ⟨d', hd', rfl⟩
  refine ⟨d', hd', hHere, ?_⟩
  have hHead : s.fdMHead = none := by
    simp [Library.fdMHead, hNone]
  cases hPtr : d'.mFdPtr with
  | none => exact hHead.symm
  | some ptr =>
      rcases hSound.cursorIn d' hd' ptr hPtr with
        ⟨node, hNode, -⟩
      rw [hNone] at hNode
      cases hNode

/- Adding a node counts as a change if there is one. -/
theorem fdMAdd_still
    {fd : Nat}
    (hSound : Sound s)
    (hOpen : s.openFd fd = some s₁)
    (card : CardNo)
    (alloc : Bool) :
    Still dev s (fdMAdd s₁ fd card alloc) := by
  cases alloc with
  | true =>
      unfold Library.openFd at hOpen
      split at hOpen
      · cases hOpen
      cases hOpen
      unfold fdMAdd
      simp only [if_true]
      split
      · exact Still.of_change (Nat.le_succ _)
          (Nat.lt_succ_self _) rfl
      · exact Still.of_change (Nat.le_succ _)
          (Nat.lt_succ_self _) rfl
  | false =>
      unfold Library.openFd at hOpen
      split at hOpen
      · cases hOpen
      rename_i hFresh
      cases hOpen
      unfold fdMAdd
      simp only [Bool.false_eq_true, if_false,
        List.append_nil, List.length_nil, Nat.add_zero]
      split
      · rename_i hNone
        have hHead : Still dev _ _ :=
          headAll_still hSound hNone
        exact ⟨Nat.le_succ _, hHead.changes, hHead.list,
          hHead.cursor, hHead.single⟩
      · exact ⟨Nat.le_succ _, le_rfl, fun _ => rfl,
          fun _ d hd hAddr => ⟨d, hd, hAddr, rfl⟩,
          fun d hd hAddr => ⟨d, hd, hAddr⟩⟩

theorem mOpenAll_still
    {entries : Option (List DirEntry)} {n : Nat}
    (hSound : Sound s)
    (hAll : mOpenAll s entries = some (n, s')) :
    Still dev s s' := by
  have hBoth := mOpenAll_keeps
    (fun s' => Sound s' ∧ Still dev s s')
    (fun _ card _ alloc _ h _ _ hOpen =>
      ⟨opened_sound (fdMAdd_sound h.1 hOpen card alloc) card,
        (h.2.trans (fdMAdd_still h.1 hOpen card alloc)).trans
          (Still.of_same rfl rfl rfl rfl rfl)⟩)
    hAll ⟨hSound, Still.refl dev s⟩
  exact hBoth.2

theorem inotifyHandle_still
    {reopen : Option DevOpen}
    (hSound : Sound s)
    (hHandle : inotifyHandle s reopen = some s') :
    Still dev s s' := by
  rcases inotifyHandle_cases hHandle with ⟨rfl, -⟩ |
    ⟨fd, alloc, s₁, -, -, hOpen, rfl⟩
  · exact Still.refl dev _
  · exact (fdMAdd_still hSound hOpen s.ld.inotifyCard
      alloc).trans (Still.of_same rfl rfl rfl rfl rfl)

/- Deleting devices leaves the others alone. -/
theorem pending_still :
    Still dev s
      { s with mDevs := deletePending s.mDevs } :=
  ⟨le_rfl, le_rfl, fun _ => rfl,
    fun _ d hd hAddr =>
      ⟨d, (mem_deletePending.mp hd).1, hAddr, rfl⟩,
    fun d hd hAddr => ⟨d, hd, hAddr⟩⟩

theorem checkMulti_still
    (hSound : Sound s)
    (used : Nat → Bool) :
    Still dev s (checkMulti s used) := by
  refine (checkMulti_keeps (Still dev s) used hSound
    (fun s' node _ _ hStill _ => ?_)
    (fun s' node _ hStill _ => ?_) pending_still).2
  · exact hStill.trans
      (Still.of_change (Nat.le_refl _)
          (Nat.lt_succ_self _) rfl)
  · unfold checkNode
    split
    · exact hStill.trans
        (Still.of_change (Nat.le_refl _)
          (Nat.lt_succ_self _) rfl)
    · exact hStill

/- The check of single cards leaves the list alone. -/
theorem releaseDev_still (d : CardDev) :
    Still dev s (releaseDev s d) := by
  have hDelete : ∀ s' : Library,
      s'.next = s.next →
      s'.changes = s.changes → s'.fdMList = s.fdMList →
      s'.mDevs = s.mDevs →
      s'.sDevs = (sNodeDelete s d).sDevs →
      Still dev s s' := by
    intro s' hN hC hL hM hS
    refine ⟨hN.ge, hC.ge, fun _ => hL,
      fun _ d' hd' hAddr => ⟨d', hM ▸ hd', hAddr, rfl⟩,
      fun d' hd' hAddr => ⟨d', ?_, hAddr⟩⟩
    rw [hS] at hd'
    exact List.mem_of_mem_filter hd'
  unfold releaseDev
  cases d.fdS with
  | none => exact hDelete _ rfl rfl rfl rfl rfl
  | some fd => exact hDelete _ rfl rfl rfl rfl rfl

theorem shealthCheck_still
    (hSound : Sound s)
    (used : Nat → Bool) :
    Still dev s (shealthCheck s used) := by
  refine (shealthCheck_keeps (Still dev s) used hSound
    (fun s' d _ _ hStill _ => ?_) (Still.refl dev s)).2
  unfold checkDev
  split
  · exact hStill.trans (releaseDev_still d)
  · cases d.fdS with
    | none => exact hStill
    | some fd =>
        simp only
        split
        · exact hStill.trans (releaseDev_still d)
        · exact hStill

theorem inotifyCreate_still (watch : WatchOpen) :
    Still dev s (inotifyCreate s watch) := by
  unfold inotifyCreate
  split
  · exact Still.refl dev s
  split
  · exact Still.refl dev s
  · exact Still.of_same rfl rfl rfl rfl rfl

theorem bound_still
    {call : OpenCall} {a : Nat}
    (hOther : a ≠ dev) :
    Still dev s (s.bound call a) := by
  unfold Library.bound
  refine Still.trans ?_ (inotifyCreate_still call.watch)
  exact update_still (fun _ => rfl)
    (fun _ hHere => (hOther hHere).elim)

/- An open leaves the devices alone that were there. -/
theorem opening_still
    {call : OpenCall} {r : Option Nat × Int}
    (hSound : Sound s)
    (hOld : dev < s.next)
    (hOpening : Opening s call r s') :
    Still dev s s' := by
  have hClose : ∀ (s : Library) (a : Nat),
      Still dev s (cardClose s a) :=
    fun s a => update_still (fun _ => rfl) (fun _ _ => rfl)
  have hFinish : ∀ (s : Library) (a : Nat)
      (fd : Option Nat),
      Still dev s (finishOpen s call a fd).2 := by
    intro s a fd
    unfold finishOpen
    split
    · refine Still.trans (update_still (a := a)
        (f := fun d => { d with devState := .devHaveFd })
        (fun _ => rfl) (fun _ _ => rfl)) ?_
      exact Still.of_same rfl rfl rfl rfl rfl
    · exact hClose s a
  have hMulti : Still dev s (s.withMulti call) := by
    have hAdded : Still dev s
        { s with
          mDevs := s.mDevs ++ [call.dev s.next]
          next := s.next + 1 } := by
      refine ⟨Nat.le_succ _, le_rfl, fun _ => rfl,
        fun _ d hd hAddr => ?_,
        fun d hd hAddr => ⟨d, hd, hAddr⟩⟩
      rcases List.mem_append.mp hd with hBefore | hNew
      · exact ⟨d, hBefore, hAddr, rfl⟩
      · rw [List.mem_singleton.mp hNew] at hAddr
        exact (hOld.ne hAddr.symm).elim
    unfold Library.withMulti
    simp only
    split
    · exact hAdded.trans (Still.of_same rfl rfl rfl rfl rfl)
    · exact hAdded.trans
        (update_still (fun _ => rfl) (fun _ _ => rfl))
  have hSingle : Still dev s (s.withSingle call) := by
    refine ⟨Nat.le_succ _, le_rfl, fun _ => rfl,
      fun _ d hd hAddr => ⟨d, hd, hAddr, rfl⟩,
      fun d hd hAddr => ?_⟩
    rcases List.mem_append.mp hd with hBefore | hNew
    · exact ⟨d, hBefore, hAddr⟩
    · rw [List.mem_singleton.mp hNew] at hAddr
      exact (hOld.ne hAddr.symm).elim
  cases hOpening with
  | noMemory _ => exact Still.refl dev s
  | noCards hNo hAll =>
      exact (hMulti.trans (mOpenAll_still
        (withMulti_sound hSound hNo) hAll)).trans
          (hClose _ _)
  | cards hNo hAll =>
      exact ((hMulti.trans (mOpenAll_still
        (withMulti_sound hSound hNo) hAll)).trans
          (bound_still hOld.ne')).trans (hFinish _ _ _)
  | noCard hNo => exact hSingle.trans (hClose _ _)
  | @card s₁ fd hNo hFd =>
      refine (hSingle.trans ?_).trans (hFinish _ _ _)
      have hFdStill : Still dev (s.withSingle call) s₁ := by
        unfold Library.openFd at hFd
        split at hFd
        · cases hFd
        · cases hFd
          exact Still.of_same rfl rfl rfl rfl rfl
      refine (hFdStill.trans (update_still (a := s.next)
        (f := fun d =>
          { d with
            fdS := some fd
            appId := call.readAppId })
        (fun _ => rfl) (fun _ _ => rfl))).trans ?_
      exact Still.of_same rfl rfl rfl rfl rfl

end Stillness

------------------------------------------------------------
-- Steps
------------------------------------------------------------

section Steps

variable {dev : Nat} {s s' : Library}

/-
  What selecting through a device does: without cards it is
  nothing, else the card at the cursor is selected and the
  cursor turned.
-/
theorem fdGet_turn
    {selected : Option Selected}
    (hSound : Sound s)
    (hGet : fdGet s dev = some (selected, s'))
    {d : CardDev}
    (hMem : d ∈ s.mDevs)
    (hAddr : d.addr = dev) :
    (d.mFdPtr = none ∧ selected = none ∧ s' = s) ∨
      ∃ ptr node next,
        d.mFdPtr = some ptr ∧
          turn FdNode.addr s.fdMList ptr = some (node, next) ∧
          selected = some node.selected ∧
          s' = s.update dev (fun d =>
            { d with mFdPtr := next }) := by
  have hDev : s.dev? dev = some d := by
    rw [← hAddr]
    exact dev_found hSound (List.mem_append_left _ hMem)
  unfold fdGet at hGet
  simp only [hDev, hSound.multi d hMem, if_true] at hGet
  unfold fdMGetAndInc at hGet
  cases hPtr : d.mFdPtr with
  | none =>
      simp only [hPtr] at hGet
      cases hGet
      exact Or.inl ⟨rfl, rfl, rfl⟩
  | some ptr =>
      simp only [hPtr] at hGet
      rcases Option.map_eq_some_iff.mp hGet with
        ⟨⟨node, next⟩, hTurn, hEq⟩
      cases hEq
      rw [hAddr]
      exact Or.inr ⟨ptr, node, next, rfl, hTurn, rfl, rfl⟩

/- Selecting through one device leaves the others alone. -/
theorem fdGet_still
    {a : Nat} {selected : Option Selected}
    (hOther : a ≠ dev)
    (hGet : fdGet s a = some (selected, s')) :
    Still dev s s' := by
  rcases fdGet_cases hGet with rfl | ⟨node, -, rfl⟩
  · exact Still.refl dev _
  · exact update_still (fun _ => rfl)
      (fun _ hHere => (hOther hHere).elim)

/-
  A step selects a card through a device, or leaves its
  cursor alone for as long as the list stays as it is.
-/
theorem libStep_still
    {event : LibEvent}
    (hSound : Sound s)
    (hOld : dev < s.next)
    (hStep : libStep s event s') :
    (event.selection dev = none ∧ Still dev s s') ∨
      ∃ selected s₁,
        fdGet s dev = some (selected, s₁) ∧
          event.selection dev = selected ∧
          s'.fdMList = s₁.fdMList ∧ s'.mDevs = s₁.mDevs ∧
          s'.sDevs = s₁.sDevs ∧ s'.next = s₁.next ∧
          s'.changes = s₁.changes := by
  cases libStep_outcome hStep with
  | opened hOpening =>
      exact Or.inl ⟨rfl, opening_still hSound hOld hOpening⟩
  | @closed a d _ _ =>
      have hBack : Still dev s (s.giveBack a) :=
        Still.of_same rfl rfl rfl rfl rfl
      exact Or.inl ⟨rfl, hBack.trans
        (update_still (fun _ => rfl) (fun _ _ => rfl))⟩
  | closedFreed _ _ =>
      exact Or.inl ⟨rfl, Still.of_same rfl rfl rfl rfl rfl⟩
  | @executed a len selected s₁ _ hGet =>
      by_cases hHere : a = dev
      · subst hHere
        refine Or.inr ⟨selected, s₁, hGet, ?_, rfl, rfl, rfl,
          rfl, rfl⟩
        simp [LibEvent.selection]
      · refine Or.inl ⟨by simp [LibEvent.selection, hHere],
          (fdGet_still hHere hGet).trans
            (Still.of_same rfl rfl rfl rfl rfl)⟩
  | executeFreed _ _ =>
      exact Or.inl ⟨rfl, Still.refl dev s⟩
  | done _ _ _ =>
      exact Or.inl ⟨rfl, Still.of_same rfl rfl rfl rfl rfl⟩
  | ioctlFreed _ _ =>
      exact Or.inl ⟨rfl, Still.of_same rfl rfl rfl rfl rfl⟩
  | @retried exec busy selected s₁ _ hGet =>
      by_cases hHere : exec.dev = dev
      · subst hHere
        refine Or.inr ⟨selected, s₁, hGet, ?_, rfl, rfl, rfl,
          rfl, rfl⟩
        simp [LibEvent.selection]
      · refine Or.inl ⟨by simp [LibEvent.selection, hHere],
          (fdGet_still hHere hGet).trans
            (Still.of_same rfl rfl rfl rfl rfl)⟩
  | busy _ => exact Or.inl ⟨rfl, Still.refl dev s⟩
  | failed _ =>
      exact Or.inl ⟨rfl, Still.of_same rfl rfl rfl rfl rfl⟩
  | finished _ =>
      exact Or.inl ⟨rfl, Still.of_same rfl rfl rfl rfl rfl⟩
  | @checkedMulti check s₁ _ hHandle =>
      exact Or.inl ⟨rfl,
        (inotifyHandle_still hSound hHandle).trans
          (checkMulti_still
            (inotifyHandle_sound hHandle hSound) check.used)⟩
  | @checkedSingle check _ _ =>
      exact Or.inl ⟨rfl,
        shealthCheck_still hSound check.used⟩
  | ignored => exact Or.inl ⟨rfl, Still.refl dev s⟩
  | noted _ _ _ =>
      exact Or.inl ⟨rfl, Still.of_same rfl rfl rfl rfl rfl⟩

end Steps

------------------------------------------------------------
-- Runs with a List That Stands Still
------------------------------------------------------------

section Rounds

variable {dev : Nat} {s s' s₁ : Library}

/-
  What has been selected through the device since `s`, by as
  many turns of its cursor.
-/
structure Turned
    (dev : Nat)
    (s : Library)
    (ptr : Option Nat)
    (trace : List LibEvent)
    (s' : Library) : Prop where
  list : s'.fdMList = s.fdMList
  turned :
    ∃ nodes now,
      selections dev trace = nodes.map FdNode.selected ∧
        (∀ n,
          turns FdNode.addr s.fdMList (nodes.length + n)
              ptr =
            nodes ++ turns FdNode.addr s.fdMList n now) ∧
        ∀ d ∈ s'.mDevs, d.addr = dev → d.mFdPtr = now

/- How far the run has come, whatever it changed. -/
structure Followed
    (dev : Nat)
    (s : Library)
    (ptr : Option Nat)
    (trace : List LibEvent)
    (s' : Library) : Prop where
  sound : Sound s'
  old : dev < s'.next
  single : ∀ d ∈ s'.sDevs, d.addr ≠ dev
  changes : s.changes ≤ s'.changes
  turned :
    s'.changes = s.changes → Turned dev s ptr trace s'

/- One step on the way around. -/
theorem followed_step
    {ptr : Option Nat} {past : List LibEvent}
    {event : LibEvent}
    (hPast : Followed dev s ptr past s₁)
    (hStep : libStep s₁ event s') :
    Followed dev s ptr (past ++ [event]) s' := by
  have hSound' := libStep_sound hPast.sound hStep
  rcases libStep_still hPast.sound hPast.old hStep with
    ⟨hNone, hStill⟩ |
      ⟨selected, s₂, hGet, hSel, hList, hM, hS, hNext,
        hChanges⟩
  · refine
      { sound := hSound'
        old := hPast.old.trans_le hStill.next
        single := fun d hd hAddr => ?_
        changes := hPast.changes.trans hStill.changes
        turned := fun hSame => ?_ }
    · rcases hStill.single d hd hAddr with ⟨d', hd', hAddr'⟩
      exact hPast.single d' hd' hAddr'
    · have hLe := hPast.changes
      have hLe' := hStill.changes
      have hBefore : s₁.changes = s.changes := by omega
      have hHere : s'.changes = s₁.changes := by omega
      rcases hPast.turned hBefore with
        ⟨hOldList, nodes, now, hNodes, hTurns, hNow⟩
      refine ⟨(hStill.list hHere).trans hOldList,
        nodes, now, ?_, hTurns, fun d hd hAddr => ?_⟩
      · rw [selections_concat, hNone, hNodes]
        simp
      · rcases hStill.cursor hHere d hd hAddr with
          ⟨d', hd', hAddr', hPtr⟩
        rw [← hPtr]
        exact hNow d' hd' hAddr'
  · -- the device is there, as its descriptor was asked for
    have hThere : ∃ d ∈ s₁.mDevs, d.addr = dev := by
      unfold fdGet at hGet
      cases hDev : s₁.dev? dev with
      | none => simp [hDev] at hGet
      | some d =>
          rcases dev_mem hDev with ⟨hMem, hAddr⟩
          rcases List.mem_append.mp hMem with hMulti | hOne
          · exact ⟨d, hMulti, hAddr⟩
          · exact (hPast.single d hOne hAddr).elim
    rcases hThere with ⟨d, hd, hAddr⟩
    rcases fdGet_turn hPast.sound hGet hd hAddr with
      ⟨hPtr, rfl, rfl⟩ |
        ⟨at', node, next, hPtr, hTurn, rfl, rfl⟩
    · refine
        { sound := hSound'
          old := hNext ▸ hPast.old
          single := hS ▸ hPast.single
          changes := hChanges ▸ hPast.changes
          turned := fun hSame => ?_ }
      rcases hPast.turned (hChanges ▸ hSame) with
        ⟨hOldList, nodes, now, hNodes, hTurns, hNow⟩
      refine ⟨hList.trans hOldList, nodes, now, ?_, hTurns,
        hM ▸ hNow⟩
      rw [selections_concat, hSel, hNodes]
      simp
    · refine
        { sound := hSound'
          old := hNext ▸ hPast.old
          single := fun d' hd' hAddr' => ?_
          changes := hChanges ▸ hPast.changes
          turned := fun hSame => ?_ }
      · rw [hS] at hd'
        rcases mem_atDev hd' with
          ⟨d'', hd'', ⟨-, rfl⟩ | ⟨-, rfl⟩⟩
        · exact hPast.single d'' hd'' hAddr'
        · exact hPast.single _ hd'' hAddr'
      · rcases hPast.turned (hChanges ▸ hSame) with
          ⟨hOldList, nodes, now, hNodes, hTurns, hNow⟩
        have hAt : now = some at' :=
          (hNow d hd hAddr).symm.trans hPtr
        refine ⟨hList.trans hOldList, nodes ++ [node], next,
          ?_, fun n => ?_, fun d' hd' hAddr' => ?_⟩
        · rw [selections_concat, hSel, hNodes]
          simp
        · rw [hOldList] at hTurn
          have hLength : (nodes ++ [node]).length + n =
              nodes.length + (n + 1) := by
            rw [List.length_append, List.length_singleton]
            omega
          rw [hLength, hTurns, hAt, turns_succ hTurn,
            List.append_assoc, List.singleton_append]
        · rw [hM] at hd'
          rcases mem_atDev hd' with
            ⟨d'', -, ⟨-, rfl⟩ | ⟨hOther, rfl⟩⟩
          · rfl
          · exact (hOther hAddr').elim

/- The whole way. -/
theorem followed_run
    {d : CardDev} {trace : List LibEvent}
    (hSound : Sound s)
    (hMem : d ∈ s.mDevs)
    (hRun : Run libStep s trace s') :
    Followed d.addr s d.mFdPtr trace s' := by
  refine hRun.invariant (Followed d.addr s d.mFdPtr) ?_
    (fun past s₁ event s₂ hPast hStep =>
      followed_step hPast hStep)
  refine
    { sound := hSound
      old := hSound.devsOld d (List.mem_append_left _ hMem)
      single := fun d' hd' hAddr =>
        hSound.devs_apart hMem hd' hAddr.symm
      changes := le_rfl
      turned := fun _ => ?_ }
  refine ⟨rfl, [], d.mFdPtr, rfl, fun n => ?_,
    fun d' hd' hAddr => ?_⟩
  · simp
  · rw [eq_of_key hSound.mDevs_nodup hd' hMem hAddr]

/-
  In every state the cursors of devices in use are at nodes
  of the list, and without a node only if there are no cards.
  While the list stands still, as many selections through one
  device as there are cards select each card once.
-/
theorem roundRobin
    {trace : List LibEvent}
    (hRun : LibRun trace s) :
    (∀ d ∈ s.mDevs, CursorIn s.fdMList d) ∧
      (∀ d ∈ s.mDevs, d.devState = .devHaveFd →
        (d.mFdPtr = none ↔ s.fdMList = [])) ∧
      ∀ d ∈ s.mDevs, d.devState = .devHaveFd →
        ∀ round s',
          Run libStep s round s' → s'.changes = s.changes →
            (selections d.addr round).length =
              s.fdMList.length →
            (selections d.addr round).Perm
              (s.fdMList.map FdNode.selected) := by
  have hSound := libRun_sound hRun
  refine ⟨hSound.cursorIn, fun d hd hState => ?_,
    fun d hd hState round s' hRound hSame hLength => ?_⟩
  · refine ⟨hSound.cursorSet d hd hState, fun hNone => ?_⟩
    cases hPtr : d.mFdPtr with
    | none => rfl
    | some ptr =>
        rcases hSound.cursorIn d hd ptr hPtr with
          ⟨node, hNode, -⟩
        rw [hNone] at hNode
        cases hNode
  · rcases (followed_run hSound hd hRound).turned hSame with
      ⟨-, nodes, now, hNodes, hTurns, -⟩
    have hTurned :
        turns FdNode.addr s.fdMList nodes.length d.mFdPtr =
          nodes := by
      have hZero := hTurns 0
      rw [Nat.add_zero] at hZero
      rw [hZero, turns, List.append_nil]
    rw [hNodes, List.length_map] at hLength
    rw [hNodes]
    refine List.Perm.map FdNode.selected ?_
    rw [← hTurned, hLength]
    cases hPtr : d.mFdPtr with
    | none =>
        have hNone := hSound.cursorSet d hd hState hPtr
        rw [hNone]
        exact List.Perm.refl _
    | some ptr =>
        rcases hSound.cursorIn d hd ptr hPtr with
          ⟨node, hNode, rfl⟩
        exact turns_perm hSound.nodes hNode

end Rounds

------------------------------------------------------------
-- A Round with Two Cards
------------------------------------------------------------

/- A command is executed on the first of them. -/
def firstTurn : Library := twoCards.after (.execute 1 1)

/- It fails there, and goes on with the second. -/
def secondTurn : Library :=
  firstTurn.after (.ioctl ⟨1, some 3, 1⟩ (.failed false false))

def roundOfTwo : List LibEvent :=
  [] ++ [twoCards.event (.execute 1 1)] ++
    [firstTurn.event
      (.ioctl ⟨1, some 3, 1⟩ (.failed false false))]

theorem roundOfTwo_run :
    Run libStep twoCards roundOfTwo secondTurn :=
  Run.next (Run.next Run.start (libStep_after rfl))
    (libStep_after rfl)

/- With two cards they take turns. -/
theorem roundRobin_two :
    (∀ d ∈ twoCards.mDevs, CursorIn twoCards.fdMList d) ∧
      selections 1 roundOfTwo = [⟨3, 0⟩, ⟨4, 1⟩] ∧
      (selections 1 roundOfTwo).Perm
        (twoCards.fdMList.map FdNode.selected) := by
  rcases roundRobin twoCards_run with ⟨hCursors, -, hRounds⟩
  refine ⟨hCursors, by decide, ?_⟩
  rcases hDevs : twoCards.mDevs with - | ⟨d, - | ⟨d', ds⟩⟩
  · cases hDevs
  · have hAddr : d.addr = 1 := by
      cases hDevs
      rfl
    have hState : d.devState = .devHaveFd := by
      cases hDevs
      rfl
    rw [← hAddr]
    exact hRounds d (by simp [hDevs]) hState roundOfTwo
      secondTurn roundOfTwo_run rfl (by rw [hAddr]; rfl)
  · cases hDevs

end Libcard
