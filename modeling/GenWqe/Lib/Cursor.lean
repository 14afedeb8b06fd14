import Mathlib.Tactic

/-
  A cursor into a list of entries told by a key, which each
  turn moves on by one entry and around at the end.

  Key definitions include:
    * `entryAt`
    * `turn` and `turns`

  Main results:
    * `turn_position`
    * `turns_rotate`
    * `turns_perm`
-/

------------------------------------------------------------
-- Entries by Key
------------------------------------------------------------

section Cursor

variable {α κ : Type*} [DecidableEq κ] (key : α → κ)

/- The entry with a key and the entry behind it. -/
def entryAt : List α → κ → Option (α × Option α)
  | [], _ => none
  | x :: rest, k =>
      if key x = k then some (x, rest.head?)
      else entryAt rest k

/-
  One turn: the entry at the cursor, and the cursor moved on
  to the next entry, or to the first one behind the last.
-/
def turn (l : List α) (k : κ) : Option (α × Option κ) :=
  (entryAt key l k).map (fun e =>
    (e.1, (e.2.or l.head?).map key))

/- The entries of the next turns. -/
def turns (l : List α) : Nat → Option κ → List α
  | 0, _ => []
  | _ + 1, none => []
  | n + 1, some k =>
      match turn key l k with
      | none => []
      | some (x, next) => x :: turns l n next

variable {key} {l : List α}

theorem entryAt_mem
    {k : κ} {x : α} {next : Option α}
    (hEntry : entryAt key l k = some (x, next)) :
    x ∈ l ∧ key x = k := by
  induction l with
  | nil => cases hEntry
  | cons y rest ih =>
      rw [entryAt] at hEntry
      split at hEntry
      · rename_i hKey
        cases hEntry
        exact ⟨List.mem_cons_self, hKey⟩
      · exact ⟨List.mem_cons_of_mem _ (ih hEntry).1,
          (ih hEntry).2⟩

/- A key on the list has an entry. -/
theorem entryAt_isSome
    {x : α}
    (hMem : x ∈ l) :
    (entryAt key l (key x)).isSome := by
  induction l with
  | nil => cases hMem
  | cons y rest ih =>
      rw [entryAt]
      split
      · rfl
      · rename_i hKey
        rcases List.mem_cons.mp hMem with rfl | hRest
        · exact (hKey rfl).elim
        · exact ih hRest

theorem entryAt_position
    (hNodup : (l.map key).Nodup)
    {i : Nat}
    (hi : i < l.length) :
    entryAt key l (key l[i]) =
      some (l[i], l[i + 1]?) := by
  induction l generalizing i with
  | nil => simp at hi
  | cons y rest ih =>
      rw [List.map_cons, List.nodup_cons] at hNodup
      rw [entryAt]
      cases i with
      | zero => simp [List.head?_eq_getElem?]
      | succ i =>
          have hRest : i < rest.length := by
            simpa using hi
          have hOther : key y ≠ key rest[i] := by
            intro hSame
            exact hNodup.1 (hSame ▸
              List.mem_map_of_mem (List.getElem_mem hRest))
          simp only [List.getElem_cons_succ, if_neg hOther,
            List.getElem?_cons_succ]
          exact ih hNodup.2 hRest

------------------------------------------------------------
-- Turns
------------------------------------------------------------

theorem turn_mem
    {k : κ} {x : α} {next : Option κ}
    (hTurn : turn key l k = some (x, next)) :
    x ∈ l ∧ key x = k := by
  unfold turn at hTurn
  rcases Option.map_eq_some_iff.mp hTurn with
    ⟨⟨y, behind⟩, hEntry, hEq⟩
  cases hEq
  exact entryAt_mem hEntry

/- Behind a turn the cursor is at an entry again. -/
theorem turn_next
    {k : κ} {x : α} {next : Option κ}
    (hTurn : turn key l k = some (x, next)) :
    ∃ y ∈ l, next = some (key y) := by
  have hMem := (turn_mem hTurn).1
  unfold turn at hTurn
  rcases Option.map_eq_some_iff.mp hTurn with
    ⟨⟨x', behind⟩, hEntry, hEq⟩
  cases hEq
  have hBehind : ∀ y, behind = some y → y ∈ l := by
    intro y hy
    subst hy
    clear hTurn hMem
    induction l with
    | nil => cases hEntry
    | cons z rest ih =>
        rw [entryAt] at hEntry
        split at hEntry
        · have hHead := (Prod.mk.inj
            (Option.some.inj hEntry)).2
          exact List.mem_cons_of_mem _
            (List.mem_of_head? hHead)
        · exact List.mem_cons_of_mem _ (ih hEntry)
  cases behind with
  | some y => exact ⟨y, hBehind y rfl, rfl⟩
  | none =>
      cases hHead : l.head? with
      | none =>
          rw [List.head?_eq_none_iff.mp hHead] at hMem
          cases hMem
      | some y => exact ⟨y, List.mem_of_head? hHead, rfl⟩

/- A turn at a position goes on to the next one, cyclically. -/
theorem turn_position
    (hNodup : (l.map key).Nodup)
    {i : Nat}
    (hi : i < l.length) :
    turn key l (key l[i]) =
      some (l[i],
        some (key (l.get ⟨(i + 1) % l.length,
          Nat.mod_lt _ (by omega)⟩))) := by
  unfold turn
  rw [entryAt_position hNodup hi, Option.map_some]
  by_cases hLast : i + 1 < l.length
  · simp [List.getElem?_eq_getElem hLast,
      Nat.mod_eq_of_lt hLast]
  · have hEnd : i + 1 = l.length := by omega
    have hPos : 0 < l.length := by omega
    simp [hEnd, List.head?_eq_getElem?,
      List.getElem?_eq_getElem hPos]

/- A list in turn, from a position on. -/
theorem turns_position
    (hNodup : (l.map key).Nodup)
    (n : Nat)
    {i : Nat}
    (hi : i < l.length) :
    turns key l n (some (key l[i])) =
      (List.range n).map (fun j =>
        l.get ⟨(i + j) % l.length,
          Nat.mod_lt _ (by omega)⟩) := by
  induction n generalizing i with
  | zero => rfl
  | succ n ih =>
      have hNext : (i + 1) % l.length < l.length :=
        Nat.mod_lt _ (by omega)
      rw [turns, turn_position hNodup hi]
      simp only [List.get_eq_getElem]
      simp only [List.get_eq_getElem] at ih
      rw [ih hNext, List.range_succ_eq_map, List.map_cons,
        List.map_map]
      congr 1
      · simp [Nat.mod_eq_of_lt hi]
      · refine List.map_congr_left (fun j _ => ?_)
        simp only [Function.comp_apply]
        congr 1
        rw [Nat.mod_add_mod]
        congr 1
        omega

/- As many turns as there are entries go around once. -/
theorem turns_rotate
    (hNodup : (l.map key).Nodup)
    {i : Nat}
    (hi : i < l.length) :
    turns key l l.length (some (key l[i])) = l.rotate i := by
  rw [turns_position hNodup _ hi]
  refine List.ext_getElem (by simp) (fun j hj _ => ?_)
  simp [List.getElem_rotate, Nat.add_comm]

theorem turns_perm
    (hNodup : (l.map key).Nodup)
    {x : α}
    (hMem : x ∈ l) :
    (turns key l l.length (some (key x))).Perm l := by
  rcases List.getElem_of_mem hMem with ⟨i, hi, rfl⟩
  rw [turns_rotate hNodup hi]
  exact List.rotate_perm l i

/- Turns are made one after the other. -/
theorem turns_succ
    {n : Nat} {k : κ} {x : α} {next : Option κ}
    (hTurn : turn key l k = some (x, next)) :
    turns key l (n + 1) (some k) =
      x :: turns key l n next := by
  rw [turns, hTurn]

end Cursor
