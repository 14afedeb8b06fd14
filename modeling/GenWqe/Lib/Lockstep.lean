import Mathlib.Data.Option.Basic
import Mathlib.Order.Basic

/-
  Two deterministic machines that are given the same inputs
  and show the same, as long as a relation between them lasts.

  Key definitions include:
    * `observe`, `Admits`
    * `Lockstep`
    * `transcript`

  Main results:
    * `Option.Rel.map_of`
    * `Lockstep.observe_eq`
    * `observe_interleaved`
    * `transcript_simulates`
-/

------------------------------------------------------------
-- Machines
------------------------------------------------------------

section Lockstep

variable {σ τ ι ω : Type*}

/- What a machine shows for its inputs, up to a fault. -/
def observe (step : σ → ι → Option (ω × σ)) :
    List ι → σ → List ω
  | [], _ => []
  | i :: rest, s =>
      match step s i with
      | none => []
      | some (o, s') => o :: observe step rest s'

/- Every input is admissible where it is met. -/
def Admits
    (step : σ → ι → Option (ω × σ)) (Ok : σ → ι → Prop) :
    List ι → σ → Prop
  | [], _ => True
  | i :: rest, s =>
      Ok s i ∧
        ∀ o s', step s i = some (o, s') →
          Admits step Ok rest s'

/-
  Related machines show the same for an admissible input, and
  are related again.
-/
def Lockstep
    (step₁ : σ → ι → Option (ω × σ))
    (step₂ : τ → ι → Option (ω × τ))
    (Ok : σ → ι → Prop)
    (R : σ → τ → Prop) : Prop :=
  ∀ s t i, R s t → Ok s i →
    Option.Rel (fun a b => a.1 = b.1 ∧ R a.2 b.2)
      (step₁ s i) (step₂ t i)

/- Results that are related stay so under related functions. -/
theorem Option.Rel.map_of
    {α β α' β' : Type*}
    {r : α → β → Prop}
    {r' : α' → β' → Prop}
    {f : α → α'}
    {g : β → β'}
    {a : Option α}
    {b : Option β}
    (hRel : Option.Rel r a b)
    (hImp : ∀ x y, r x y → r' (f x) (g y)) :
    Option.Rel r' (a.map f) (b.map g) := by
  cases hRel with
  | none => exact .none
  | some hBoth => exact .some (hImp _ _ hBoth)

variable {step₁ : σ → ι → Option (ω × σ)}
variable {step₂ : τ → ι → Option (ω × τ)}
variable {Ok : σ → ι → Prop} {R : σ → τ → Prop}

namespace Lockstep

/- So they show the same over all of them. -/
theorem observe_eq
    {is : List ι}
    {s : σ}
    {t : τ}
    (hLock : Lockstep step₁ step₂ Ok R)
    (hRel : R s t)
    (hOk : Admits step₁ Ok is s) :
    observe step₁ is s = observe step₂ is t := by
  induction is generalizing s t with
  | nil => rfl
  | cons i rest ih =>
      have hStep := hLock s t i hRel hOk.1
      have hRest := hOk.2
      unfold observe
      cases h₁ : step₁ s i with
      | none =>
          rw [h₁] at hStep
          cases h₂ : step₂ t i with
          | none => rfl
          | some b =>
              rw [h₂] at hStep
              cases hStep
      | some a =>
          rw [h₁] at hStep
          cases h₂ : step₂ t i with
          | none =>
              rw [h₂] at hStep
              cases hStep
          | some b =>
              rcases a with ⟨o, s'⟩
              rcases b with ⟨o', t'⟩
              rw [h₂] at hStep
              cases hStep with
              | some hBoth =>
                  have hSame : o = o' := hBoth.1
                  simp only
                  rw [hSame,
                    ih hBoth.2 (hRest _ _ h₁)]

end Lockstep

------------------------------------------------------------
-- Interleaving
------------------------------------------------------------

/- The part of a list that belongs to one of several. -/
def partOf
    {κ α : Type*} [DecidableEq κ]
    (k : κ) (xs : List (κ × α)) : List α :=
  (xs.filter fun x => x.1 = k).map Prod.snd

/-
  Several machines behind one state, of which every input
  moves one and leaves the others alone: each shows what it
  would show by itself.
-/
theorem observe_interleaved
    {κ : Type*}
    [DecidableEq κ]
    {both : σ → κ × ι → Option ((κ × ω) × σ)}
    {step : τ → ι → Option (ω × τ)}
    {view : κ → σ → τ}
    {Inv : σ → Prop}
    (hStep :
      ∀ s k i, Inv s →
        ∃ o s',
          both s (k, i) = some ((k, o), s') ∧ Inv s' ∧
            step (view k s) i = some (o, view k s') ∧
            ∀ other, other ≠ k → view other s' = view other s)
    {s : σ}
    (hInv : Inv s)
    (is : List (κ × ι))
    (k : κ) :
    partOf k (observe both is s) =
      observe step (partOf k is) (view k s) := by
  induction is generalizing s with
  | nil => rfl
  | cons input rest ih =>
      rcases input with ⟨j, i⟩
      rcases hStep s j i hInv with
        ⟨o, s', hBoth, hInv', hOne, hOthers⟩
      have hRest := ih hInv'
      have hFirst :
          observe both ((j, i) :: rest) s =
            (j, o) :: observe both rest s' := by
        rw [observe, hBoth]
      rw [hFirst]
      by_cases hMine : j = k
      · subst hMine
        have hSecond :
            observe step (i :: partOf j rest) (view j s) =
              o :: observe step (partOf j rest)
                (view j s') := by
          rw [observe, hOne]
        simp only [partOf, List.filter_cons, decide_true,
          if_true, List.map_cons] at hRest hSecond ⊢
        rw [hRest, hSecond]
      · have hView : view k s' = view k s :=
          hOthers k fun hEq => hMine hEq.symm
        rw [hView] at hRest
        simp only [partOf, List.filter_cons, hMine,
          decide_false, Bool.false_eq_true, if_false]
          at hRest ⊢
        exact hRest

end Lockstep

------------------------------------------------------------
-- Total Machines
------------------------------------------------------------

section Machines

variable {σ τ ι ω : Type*}

/- The answers to a list of requests, and the state behind. -/
def transcript (step : σ → ι → ω × σ) :
    List ι → σ → List ω × σ
  | [], s => ([], s)
  | i :: rest, s =>
      let next := step s i
      let behind := transcript step rest next.2
      (next.1 :: behind.1, behind.2)

/-
  Machines whose related states answer every admissible
  request alike, and stay related, have the same transcripts.
-/
theorem transcript_simulates
    {step₁ : σ → ι → ω × σ}
    {step₂ : τ → ι → ω × τ}
    {R : σ → τ → Prop}
    {Ok : ι → Prop}
    (hStep :
      ∀ s t i, Ok i → R s t →
        (step₁ s i).1 = (step₂ t i).1 ∧
          R (step₁ s i).2 (step₂ t i).2)
    {s : σ}
    {t : τ}
    (hRel : R s t)
    {is : List ι}
    (hOk : ∀ i ∈ is, Ok i) :
    (transcript step₁ is s).1 = (transcript step₂ is t).1 ∧
      R (transcript step₁ is s).2
        (transcript step₂ is t).2 := by
  induction is generalizing s t with
  | nil => exact ⟨rfl, hRel⟩
  | cons i rest ih =>
      rcases hStep s t i (hOk i List.mem_cons_self) hRel with
        ⟨hSame, hNext⟩
      rcases ih hNext
          fun j hj => hOk j (List.mem_cons_of_mem i hj) with
        ⟨hRest, hBehind⟩
      refine ⟨?_, hBehind⟩
      simp only [transcript]
      rw [hSame, hRest]

/- A property that every admissible request keeps. -/
theorem transcript_preserves
    {step : σ → ι → ω × σ}
    {P : σ → Prop}
    {Ok : ι → Prop}
    (hStep : ∀ s i, Ok i → P s → P (step s i).2)
    {s : σ}
    (hStart : P s)
    {is : List ι}
    (hOk : ∀ i ∈ is, Ok i) :
    P (transcript step is s).2 := by
  induction is generalizing s with
  | nil => exact hStart
  | cons i rest ih =>
      apply ih
      · exact hStep s i (hOk i List.mem_cons_self) hStart
      · intro j hj
        exact hOk j (List.mem_cons_of_mem i hj)

end Machines
