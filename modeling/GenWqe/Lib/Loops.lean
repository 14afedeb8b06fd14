import Mathlib.Tactic

/-
  Loops whose rounds return, fail or go on, and the rules that
  tell whether they end.

  Key definitions include:
    * `LoopEnds`
    * `LoopReaches`

  Main results:
    * `loopEnds_of_measure`
    * `not_loopEnds_of_invariant`
    * `LoopReaches.invariant`
-/

------------------------------------------------------------
-- Loops
------------------------------------------------------------

section Loops

variable {σ ρ : Type*}

/-
  The loop ends from a round on: with what a round returns, or
  with no result where a round fails.
-/
inductive LoopEnds
    (round : Nat → σ → Option (Sum ρ σ)) :
    Nat → σ → Option ρ → Prop
  | returns
      {n : Nat} {s : σ} {r : ρ}
      (hRound : round n s = some (.inl r)) :
      LoopEnds round n s (some r)
  | faults
      {n : Nat} {s : σ}
      (hRound : round n s = none) :
      LoopEnds round n s none
  | goesOn
      {n : Nat} {s s' : σ} {outcome : Option ρ}
      (hRound : round n s = some (.inr s'))
      (hRest : LoopEnds round (n + 1) s' outcome) :
      LoopEnds round n s outcome

variable {round : Nat → σ → Option (Sum ρ σ)}

/-
  Rounds that go on keep an invariant and make a measure
  smaller, or leave a state from which the loop ends.
-/
theorem loopEnds_of_measure
    (P : σ → Prop)
    (μ : σ → Nat)
    (hStep :
      ∀ n s s',
        P s → round n s = some (.inr s') →
          (∃ outcome, LoopEnds round (n + 1) s' outcome) ∨
            P s' ∧ μ s' < μ s)
    {s : σ}
    (hStart : P s)
    (n : Nat) :
    ∃ outcome, LoopEnds round n s outcome := by
  induction hSize : μ s using Nat.strong_induction_on
    generalizing s n with
  | _ m ih =>
      cases hRound : round n s with
      | none => exact ⟨_, .faults hRound⟩
      | some result =>
          cases result with
          | inl r => exact ⟨_, .returns hRound⟩
          | inr s' =>
              have hNext : ∃ outcome,
                  LoopEnds round (n + 1) s' outcome := by
                rcases hStep n s s' hStart hRound with
                  hEnds | ⟨hInv, hLess⟩
                · exact hEnds
                · exact ih (μ s') (hSize ▸ hLess) hInv
                    (n + 1) rfl
              rcases hNext with ⟨outcome, hEnds⟩
              exact ⟨outcome, .goesOn hRound hEnds⟩

/- Rounds that always go on never end the loop. -/
theorem not_loopEnds_of_invariant
    (P : σ → Prop)
    (hStep :
      ∀ n s, P s → ∃ s', round n s = some (.inr s') ∧ P s')
    {n : Nat} {s : σ} {outcome : Option ρ}
    (hStart : P s) :
    ¬LoopEnds round n s outcome := by
  intro hEnds
  induction hEnds with
  | returns hRound =>
      rcases hStep _ _ hStart with ⟨s', hNext, -⟩
      rw [hRound] at hNext
      cases hNext
  | faults hRound =>
      rcases hStep _ _ hStart with ⟨s', hNext, -⟩
      rw [hRound] at hNext
      cases hNext
  | goesOn hRound _ ih =>
      rcases hStep _ _ hStart with ⟨s', hNext, hInv⟩
      rw [hRound] at hNext
      cases hNext
      exact ih hInv

/- A round is reached, and this is the state in front of it. -/
inductive LoopReaches
    (round : Nat → σ → Option (Sum ρ σ)) (s₀ : σ) :
    Nat → σ → Prop
  | start : LoopReaches round s₀ 0 s₀
  | next
      {n : Nat} {s s' : σ}
      (hBefore : LoopReaches round s₀ n s)
      (hRound : round n s = some (.inr s')) :
      LoopReaches round s₀ (n + 1) s'

/- What every round that goes on keeps holds in front of all. -/
theorem LoopReaches.invariant
    (P : Nat → σ → Prop)
    {s₀ s : σ} {n : Nat}
    (hReaches : LoopReaches round s₀ n s)
    (hStart : P 0 s₀)
    (hStep :
      ∀ n s s', P n s → round n s = some (.inr s') →
        P (n + 1) s') :
    P n s := by
  induction hReaches with
  | start => exact hStart
  | next _ hRound ih => exact hStep _ _ _ ih hRound

end Loops
