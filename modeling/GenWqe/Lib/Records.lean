import Mathlib.Tactic

/-
  The extent of a list of places, one more than the greatest
  of them, and a program that tries to keep it but compares a
  place with a length.

  Key definitions include:
    * `extent`
    * `recordSteps`, `lateRun`
    * `watermark`

  Main results:
    * `lt_extent`, `extent_attained`
    * `watermark_add`
    * `watermark_eq_iff`
-/

------------------------------------------------------------
-- Extents
------------------------------------------------------------

/- One more than the greatest place, from `h` on. -/
def extent : Nat → List Nat → Nat
  | h, [] => h
  | h, w :: ws => extent (max h (w + 1)) ws

theorem le_extent (h : Nat) (ws : List Nat) :
    h ≤ extent h ws := by
  induction ws generalizing h with
  | nil => exact Nat.le_refl h
  | cons w ws ih =>
      exact Nat.le_trans (Nat.le_max_left h (w + 1))
        (ih (max h (w + 1)))

/- Every place lies below the extent. -/
theorem lt_extent
    {h w : Nat}
    {ws : List Nat}
    (hMem : w ∈ ws) :
    w < extent h ws := by
  induction ws generalizing h with
  | nil => cases hMem
  | cons v ws ih =>
      rcases List.mem_cons.mp hMem with rfl | hRest
      · have hRest := le_extent (max h (w + 1)) ws
        unfold extent
        omega
      · exact ih hRest

/- Where it has grown, it is just behind a place. -/
theorem extent_attained (h : Nat) (ws : List Nat) :
    extent h ws = h ∨ ∃ w ∈ ws, w + 1 = extent h ws := by
  induction ws generalizing h with
  | nil => exact Or.inl rfl
  | cons w ws ih =>
      unfold extent
      rcases ih (max h (w + 1)) with hSame | ⟨v, hMem, hAt⟩
      · rw [hSame]
        by_cases hNew : w + 1 ≤ h
        · exact Or.inl (Nat.max_eq_left hNew)
        · refine Or.inr ⟨w, List.mem_cons_self, ?_⟩
          omega
      · exact Or.inr ⟨v, List.mem_cons_of_mem w hMem, hAt⟩

/- More places, more extent. -/
theorem extent_mono
    {vs ws : List Nat}
    (hSub : vs ⊆ ws) :
    extent 0 vs ≤ extent 0 ws := by
  rcases extent_attained 0 vs with hNone | ⟨v, hMem, hAt⟩
  · rw [hNone]
    exact Nat.zero_le _
  · rw [← hAt]
    exact lt_extent (hSub hMem)

------------------------------------------------------------
-- New Highest Places
------------------------------------------------------------

/-
  For every place that is a new highest one, whether it
  stands next to the highest before it.
-/
def recordSteps : Nat → List Nat → List Bool
  | _, [] => []
  | h, w :: ws =>
      if w < h then recordSteps h ws
      else decide (w = h) :: recordSteps (w + 1) ws

/- How many true values a list ends with. -/
def lateRun (bs : List Bool) : Nat :=
  (bs.reverse.takeWhile id).length

theorem lateRun_append (bs : List Bool) (b : Bool) :
    lateRun (bs ++ [b]) = if b then lateRun bs + 1 else 0 := by
  cases b <;> simp [lateRun]

/- A flag that every true value turns, every other clears. -/
def lateFlag : Bool → List Bool → Bool
  | s, [] => s
  | s, b :: bs => lateFlag (b && !s) bs

theorem lateFlag_append (s : Bool) (bs : List Bool) (b : Bool) :
    lateFlag s (bs ++ [b]) = (b && !lateFlag s bs) := by
  induction bs generalizing s with
  | nil => rfl
  | cons c bs ih => exact ih _

/- The flag is set after an odd number of late true values. -/
theorem lateFlag_iff (bs : List Bool) :
    lateFlag false bs = false ↔ Even (lateRun bs) := by
  induction bs using List.reverseRecOn with
  | nil => simp [lateFlag, lateRun]
  | append_singleton bs b ih =>
      rw [lateFlag_append, lateRun_append]
      cases b with
      | false => simp
      | true =>
          simp only [Bool.true_and, if_true,
            Nat.even_add_one, ← ih]
          simp

------------------------------------------------------------
-- The Length That Is Compared With Places
------------------------------------------------------------

/- The length is raised by places greater than itself. -/
def watermark : Nat → List Nat → Nat
  | l, [] => l
  | l, w :: ws => watermark (if l < w then w + 1 else l) ws

/-
  It is the extent or one less: a new highest place next to
  an exact length is missed, any other makes it exact.
-/
theorem watermark_add
    (ws : List Nat)
    {h : Nat}
    {s : Bool}
    (hLe : s.toNat ≤ h) :
    watermark (h - s.toNat) ws +
        (lateFlag s (recordSteps h ws)).toNat =
      extent h ws := by
  induction ws generalizing h s with
  | nil =>
      simp only [watermark, recordSteps, lateFlag, extent]
      omega
  | cons w ws ih =>
      have hFlag : s.toNat ≤ 1 := by cases s <;> decide
      unfold watermark extent recordSteps
      by_cases hOld : w < h
      · have hMax : max h (w + 1) = h := by omega
        rw [if_neg (by omega), if_pos hOld, hMax]
        exact ih hLe
      · have hMax : max h (w + 1) = w + 1 := by omega
        rw [if_neg hOld, hMax, lateFlag]
        by_cases hNext : w = h
        · subst hNext
          cases s with
          | false =>
              have hRest := @ih (w + 1) true (by simp)
              simpa using hRest
          | true =>
              have hRest := @ih (w + 1) false (by simp)
              have hPos : 0 < w := hLe
              have hRaised : w - 1 < w := by omega
              simpa [hRaised] using hRest
        · have hRest := @ih (w + 1) false (by simp)
          have hRaised : h - s.toNat < w := by omega
          simpa [hRaised, hNext] using hRest

/-
  So it is the extent exactly where the new highest places
  end with an even number of steps of one.
-/
theorem watermark_eq_iff (ws : List Nat) :
    watermark 0 ws = extent 0 ws ↔
      Even (lateRun (recordSteps 0 ws)) := by
  have hSum := @watermark_add ws 0 false (Nat.le_refl 0)
  rw [← lateFlag_iff]
  simp only [Bool.toNat_false, Nat.sub_zero] at hSum
  cases hFlag : lateFlag false (recordSteps 0 ws) with
  | false =>
      rw [hFlag] at hSum
      simpa using hSum
  | true =>
      rw [hFlag] at hSum
      simp only [Bool.toNat_true] at hSum
      simp only [reduceCtorEq, iff_false]
      omega

theorem watermark_le (ws : List Nat) :
    watermark 0 ws ≤ extent 0 ws := by
  have hSum := @watermark_add ws 0 false (Nat.le_refl 0)
  simp only [Bool.toNat_false, Nat.sub_zero] at hSum
  omega
