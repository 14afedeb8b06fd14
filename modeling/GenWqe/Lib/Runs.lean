import Mathlib.Tactic

/-
  Runs of a labelled transition relation, with the rules that
  carry a property of one step to whole runs.

  Key definitions include:
    * `Run`

  Main results:
    * `Run.invariant`
    * `Run.invariant_of_labels`
    * `Run.split`, `Run.last`
    * `Run.all_good_iff`
    * `Run.all_steps_iff`
-/

------------------------------------------------------------
-- Runs
------------------------------------------------------------

section Runs

variable {σ ℓ : Type*}

/-
  The trace of labels and the state reached from `s₀`, the
  latest label last.
-/
inductive Run (step : σ → ℓ → σ → Prop) (s₀ : σ) :
    List ℓ → σ → Prop
  | start : Run step s₀ [] s₀
  | next
      {trace : List ℓ} {s s' : σ} {l : ℓ} :
      Run step s₀ trace s →
      step s l s' →
      Run step s₀ (trace ++ [l]) s'

variable {step : σ → ℓ → σ → Prop} {s₀ s : σ}
variable {trace : List ℓ}

namespace Run

/-
  A property of trace and state that holds at the start and
  survives every step holds after every run.
-/
theorem invariant
    (P : List ℓ → σ → Prop)
    (hStart : P [] s₀)
    (hStep :
      ∀ trace s l s',
        P trace s → step s l s' → P (trace ++ [l]) s')
    (hRun : Run step s₀ trace s) :
    P trace s := by
  induction hRun with
  | start => exact hStart
  | next _ hNext ih => exact hStep _ _ _ _ ih hNext

/- The same where every label of the trace is admissible. -/
theorem invariant_of_labels
    (P : List ℓ → σ → Prop)
    (Ok : ℓ → Prop)
    (hStart : P [] s₀)
    (hStep :
      ∀ trace s l s',
        Ok l → P trace s → step s l s' →
          P (trace ++ [l]) s')
    (hRun : Run step s₀ trace s)
    (hOk : ∀ l ∈ trace, Ok l) :
    P trace s := by
  induction hRun with
  | start => exact hStart
  | next _ hNext ih =>
      have hPast := ih (fun l hl =>
        hOk l (List.mem_append_left _ hl))
      exact hStep _ _ _ _
        (hOk _ (by simp)) hPast hNext

/- A property of states alone that every step keeps. -/
theorem preserves
    (P : σ → Prop)
    (hStart : P s₀)
    (hStep : ∀ s l s', P s → step s l s' → P s')
    (hRun : Run step s₀ trace s) :
    P s :=
  hRun.invariant (fun _ s => P s) hStart
    (fun _ _ _ _ hP hNext => hStep _ _ _ hP hNext)

/- A run can be cut in front of each of its labels. -/
theorem split
    {past rest : List ℓ}
    {l : ℓ}
    (hRun : Run step s₀ trace s)
    (hTrace : trace = past ++ l :: rest) :
    ∃ s₁ s₂, Run step s₀ past s₁ ∧ step s₁ l s₂ := by
  induction hRun generalizing rest with
  | start =>
      have hLen := congrArg List.length hTrace
      simp at hLen
  | @next trace s₁ s₂ l' hPast hNext ih =>
      rcases List.eq_nil_or_concat rest with
        rfl | ⟨rest', l'', rfl⟩
      · rcases List.append_inj' hTrace rfl with
          ⟨rfl, hLast⟩
        cases hLast
        exact ⟨s₁, s₂, hPast, hNext⟩
      · rw [List.concat_eq_append, ← List.cons_append,
          ← List.append_assoc] at hTrace
        exact ih (List.append_inj' hTrace rfl).1

/- The last label of a run is that of a last step. -/
theorem last
    {l : ℓ}
    (hRun : Run step s₀ (trace ++ [l]) s) :
    ∃ s₁, Run step s₀ trace s₁ ∧ step s₁ l s := by
  generalize hTrace : trace ++ [l] = all at hRun
  cases hRun with
  | start => simp at hTrace
  | next hPast hNext =>
      rcases List.append_inj' hTrace rfl with ⟨rfl, hLast⟩
      cases hLast
      exact ⟨_, hPast, hNext⟩

/- A run of a stronger relation is a run of a weaker one. -/
theorem mono
    {step' : σ → ℓ → σ → Prop}
    (hImp : ∀ s l s', step s l s' → step' s l s')
    (hRun : Run step s₀ trace s) :
    Run step' s₀ trace s := by
  induction hRun with
  | start => exact Run.start
  | next _ hNext ih => exact Run.next ih (hImp _ _ _ hNext)

------------------------------------------------------------
-- Exact Conditions
------------------------------------------------------------

/- A trace leads to one state only. -/
theorem unique
    (hDet :
      ∀ s l s₁ s₂, step s l s₁ → step s l s₂ → s₁ = s₂)
    {s' : σ}
    (hRun : Run step s₀ trace s)
    (hRun' : Run step s₀ trace s') :
    s = s' := by
  induction hRun generalizing s' with
  | start =>
      generalize hTrace : ([] : List ℓ) = trace at hRun'
      cases hRun' with
      | start => rfl
      | next _ _ => simp at hTrace
  | @next past s₁ s₂ l hPast hNext ih =>
      generalize hTrace : past ++ [l] = trace at hRun'
      cases hRun' with
      | start => simp at hTrace
      | next hPast' hNext' =>
          rcases List.append_inj' hTrace rfl with
            ⟨rfl, hLast⟩
          cases hLast
          cases ih hPast'
          exact hDet _ _ _ _ hNext hNext'

/-
  Along a run whose steps keep an invariant exactly if they
  are admissible, and show it if they are not, what the
  invariant gives holds in all states exactly if every step
  is admissible.
-/
theorem all_good_iff
    (Strong Good : List ℓ → σ → Prop)
    (Ok : List ℓ → σ → ℓ → Prop)
    (hDet :
      ∀ s l s₁ s₂, step s l s₁ → step s l s₂ → s₁ = s₂)
    (hStart : Strong [] s₀)
    (hGood : ∀ past s, Strong past s → Good past s)
    (hKeep :
      ∀ past s l s',
        Strong past s → step s l s' → Ok past s l →
          Strong (past ++ [l]) s')
    (hShow :
      ∀ past s l s',
        Strong past s → step s l s' →
          Good (past ++ [l]) s' → Ok past s l)
    (hRun : Run step s₀ trace s) :
    (∀ past s₁,
        past <+: trace → Run step s₀ past s₁ →
          Good past s₁) ↔
      ∀ past l s₁,
        past ++ [l] <+: trace → Run step s₀ past s₁ →
          Ok past s₁ l := by
  have hBoth :
      ((∀ past s₁,
          past <+: trace → Run step s₀ past s₁ →
            Good past s₁) ∨
        ∀ past l s₁,
          past ++ [l] <+: trace → Run step s₀ past s₁ →
            Ok past s₁ l) →
      Strong trace s ∧
        (∀ past s₁,
          past <+: trace → Run step s₀ past s₁ →
            Good past s₁) ∧
        ∀ past l s₁,
          past ++ [l] <+: trace → Run step s₀ past s₁ →
            Ok past s₁ l := by
    induction hRun with
    | start =>
        intro _
        refine ⟨hStart, fun past s₁ hPast hRun₁ => ?_,
          fun past l s₁ hPast _ => ?_⟩
        · obtain rfl := List.prefix_nil.mp hPast
          obtain rfl := unique hDet Run.start hRun₁
          exact hGood _ _ hStart
        · have hNil := List.prefix_nil.mp hPast
          simp at hNil
    | @next trace s s' l hPast hNext ih =>
        intro hAny
        have hStep := Run.next hPast hNext
        have hBefore := ih (hAny.imp
          (fun h past s₁ hPre =>
            h past s₁ (hPre.trans (List.prefix_append _ _)))
          (fun h past l' s₁ hPre =>
            h past l' s₁
              (hPre.trans (List.prefix_append _ _))))
        have hOk : Ok trace s l := by
          rcases hAny with hAll | hAll
          · exact hShow _ _ _ _ hBefore.1 hNext
              (hAll _ _ (List.prefix_refl _) hStep)
          · exact hAll _ _ _ (List.prefix_refl _) hPast
        have hStrong := hKeep _ _ _ _ hBefore.1 hNext hOk
        refine ⟨hStrong, fun past s₁ hPre hRun₁ => ?_,
          fun past l' s₁ hPre hRun₁ => ?_⟩
        · rcases List.prefix_concat_iff.mp hPre with
            rfl | hPre
          · obtain rfl := unique hDet hStep hRun₁
            exact hGood _ _ hStrong
          · exact hBefore.2.1 past s₁ hPre hRun₁
        · rcases List.prefix_concat_iff.mp hPre with
            hEq | hPre
          · rcases List.append_inj' hEq rfl with
              ⟨rfl, hLast⟩
            cases hLast
            obtain rfl := unique hDet hPast hRun₁
            exact hOk
          · exact hBefore.2.2 past l' s₁ hPre hRun₁
  exact ⟨fun h => (hBoth (Or.inl h)).2.2,
    fun h => (hBoth (Or.inr h)).2.1⟩

/- What holds of the steps before and of the last one. -/
theorem all_steps_next
    (P : σ → ℓ → Prop)
    (hDet :
      ∀ s l s₁ s₂, step s l s₁ → step s l s₂ → s₁ = s₂)
    (hRun : Run step s₀ trace s)
    (hBefore :
      ∀ past l s₁,
        past ++ [l] <+: trace → Run step s₀ past s₁ →
          P s₁ l)
    {l : ℓ}
    (hLast : P s l) :
    ∀ past l' s₁,
      past ++ [l'] <+: trace ++ [l] →
        Run step s₀ past s₁ → P s₁ l' := by
  intro past l' s₁ hPre hRun₁
  rcases List.prefix_concat_iff.mp hPre with hEq | hPre
  · rcases List.append_inj' hEq rfl with ⟨rfl, hSame⟩
    cases hSame
    obtain rfl := unique hDet hRun hRun₁
    exact hLast
  · exact hBefore past l' s₁ hPre hRun₁

/-
  Along a run whose admissible steps keep an invariant under
  which the good steps are the admissible ones, all steps are
  good exactly if all are admissible.
-/
theorem all_steps_iff
    (Strong : σ → Prop)
    (Good Ok : σ → ℓ → Prop)
    (hDet :
      ∀ s l s₁ s₂, step s l s₁ → step s l s₂ → s₁ = s₂)
    (hStart : Strong s₀)
    (hKeep :
      ∀ s l s',
        Strong s → step s l s' → Ok s l → Strong s')
    (hExact :
      ∀ s l s', Strong s → step s l s' → (Good s l ↔ Ok s l))
    (hRun : Run step s₀ trace s) :
    (∀ past l s₁,
        past ++ [l] <+: trace → Run step s₀ past s₁ →
          Good s₁ l) ↔
      ∀ past l s₁,
        past ++ [l] <+: trace → Run step s₀ past s₁ →
          Ok s₁ l := by
  have hBoth :
      ∀ P : σ → ℓ → Prop,
        (∀ s l s', Strong s → step s l s' → P s l → Ok s l) →
        (∀ past l s₁,
          past ++ [l] <+: trace → Run step s₀ past s₁ →
            P s₁ l) →
        Strong s ∧
          ∀ past l s₁,
            past ++ [l] <+: trace → Run step s₀ past s₁ →
              Strong s₁ ∧ Ok s₁ l ∧ ∃ s₂, step s₁ l s₂ := by
    intro P hImp hAll
    induction hRun with
    | start =>
        refine ⟨hStart, fun past l s₁ hPre _ => ?_⟩
        have hNil := List.prefix_nil.mp hPre
        simp at hNil
    | @next trace s s' l hPast hNext ih =>
        have hBefore := ih fun past l' s₁ hPre =>
          hAll past l' s₁
            (hPre.trans (List.prefix_append _ _))
        have hOk : Ok s l :=
          hImp s l s' hBefore.1 hNext
            (hAll _ _ _ (List.prefix_refl _) hPast)
        refine ⟨hKeep _ _ _ hBefore.1 hNext hOk, ?_⟩
        exact all_steps_next
          (fun s l => Strong s ∧ Ok s l ∧ ∃ s₂, step s l s₂)
          hDet hPast hBefore.2 ⟨hBefore.1, hOk, s', hNext⟩
  constructor
  · intro hGood past l s₁ hPre hRun₁
    have hSteps :=
      (hBoth Good (fun s l s' h h' => (hExact s l s' h h').mp)
        hGood).2
    exact (hSteps past l s₁ hPre hRun₁).2.1
  · intro hOk past l s₁ hPre hRun₁
    have hSteps := (hBoth Ok (fun _ _ _ _ _ h => h) hOk).2
    rcases hSteps past l s₁ hPre hRun₁ with
      ⟨hStrong, hOk₁, s₂, hNext⟩
    exact (hExact s₁ l s₂ hStrong hNext).mpr hOk₁

end Run

end Runs
