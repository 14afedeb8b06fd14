import Mathlib.Tactic

/-
  A sweep over a snapshot of the entries of a state, where
  each turn may remove the entry that it is at.

  Key definitions include:
    * `strictly`

  Main results:
    * `sweep_keeps`
    * `sweep_strictly`
-/

------------------------------------------------------------
-- Sweeps
------------------------------------------------------------

section Sweep

variable {σ α κ : Type*}

/- A turn that goes wrong where its guard does not hold. -/
def strictly
    (guard : σ → α → Prop)
    [∀ s x, Decidable (guard s x)]
    (f : σ → α → σ)
    (s : σ)
    (x : α) : Option σ :=
  if guard s x then some (f s x) else none

variable {key : α → κ} {items : σ → List α}
variable {f : σ → α → σ}

/-
  What one turn keeps at an entry that is still there, the
  sweep keeps, as long as a turn leaves the other entries.
-/
theorem sweep_keeps
    (P : σ → Prop)
    (xs : List α)
    (hStep :
      ∀ s x, x ∈ xs → P s → x ∈ items s → P (f s x))
    (hRest :
      ∀ s x y,
        P s → x ∈ items s → y ∈ items s →
          key y ≠ key x → y ∈ items (f s x))
    (hNodup : (xs.map key).Nodup)
    {s : σ}
    (hIn : ∀ x ∈ xs, x ∈ items s)
    (hP : P s) :
    P (xs.foldl f s) := by
  induction xs generalizing s with
  | nil => exact hP
  | cons x rest ih =>
      rw [List.map_cons, List.nodup_cons] at hNodup
      have hMem := hIn x List.mem_cons_self
      rw [List.foldl_cons]
      apply ih
      · intro s y hy
        exact hStep s y (List.mem_cons_of_mem _ hy)
      · exact hNodup.2
      · intro y hy
        refine hRest s x y hP hMem
          (hIn y (List.mem_cons_of_mem _ hy)) ?_
        intro hSame
        exact hNodup.1 (hSame ▸ List.mem_map_of_mem hy)
      · exact hStep s x List.mem_cons_self hP hMem

/-
  Where the guard holds of the entries of a good state, no
  turn of a sweep goes wrong.
-/
theorem sweep_strictly
    (P : σ → Prop)
    (guard : σ → α → Prop)
    [∀ s x, Decidable (guard s x)]
    (xs : List α)
    (hGuard : ∀ s x, P s → x ∈ items s → guard s x)
    (hStep : ∀ s x, P s → x ∈ items s → P (f s x))
    (hRest :
      ∀ s x y,
        P s → x ∈ items s → y ∈ items s →
          key y ≠ key x → y ∈ items (f s x))
    (hNodup : (xs.map key).Nodup)
    {s : σ}
    (hIn : ∀ x ∈ xs, x ∈ items s)
    (hP : P s) :
    xs.foldlM (strictly guard f) s =
      some (xs.foldl f s) := by
  induction xs generalizing s with
  | nil => rfl
  | cons x rest ih =>
      rw [List.map_cons, List.nodup_cons] at hNodup
      have hMem := hIn x List.mem_cons_self
      have hTurn : strictly guard f s x = some (f s x) :=
        if_pos (hGuard s x hP hMem)
      rw [List.foldlM_cons, hTurn, List.foldl_cons]
      apply ih hNodup.2
      · intro y hy
        refine hRest s x y hP hMem
          (hIn y (List.mem_cons_of_mem _ hy)) ?_
        intro hSame
        exact hNodup.1 (hSame ▸ List.mem_map_of_mem hy)
      · exact hStep s x hP hMem

end Sweep
