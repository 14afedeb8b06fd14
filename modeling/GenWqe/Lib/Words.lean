import Mathlib.Computability.Language
import Mathlib.Tactic

/-
  Words at the front of a list, in languages where no word is
  the beginning of another one.

  Key definitions include:
    * `PrefixFree`
    * `Ahead`
    * `Terminated`
    * `Reads`

  Main results:
    * `PrefixFree.mul`
    * `ahead_mul`
    * `Reads.mul`
-/

------------------------------------------------------------
-- Words Ahead
------------------------------------------------------------

namespace Words

variable {α : Type*} {L M : Language α}

/- No word is the beginning of another one. -/
def PrefixFree (L : Language α) : Prop :=
  ∀ u ∈ L, ∀ v ∈ L, u <+: v → u = v

/- A word of the language is at the front of the list. -/
def Ahead (L : Language α) (l : List α) : Prop :=
  ∃ u ∈ L, u <+: l

theorem prefixFree_one : PrefixFree (1 : Language α) := by
  intro u hu v hv _
  rw [Language.mem_one] at hu hv
  rw [hu, hv]

/- Words of one length. -/
theorem prefixFree_of_length
    {n : Nat}
    (hLength : ∀ u ∈ L, u.length = n) :
    PrefixFree L := by
  intro u hu v hv hPrefix
  refine hPrefix.eq_of_length ?_
  rw [hLength u hu, hLength v hv]

/- A word ahead is the only one. -/
theorem PrefixFree.unique
    (hFree : PrefixFree L)
    {u v l : List α}
    (hu : u ∈ L)
    (hv : v ∈ L)
    (hul : u <+: l)
    (hvl : v <+: l) :
    u = v := by
  rcases Nat.le_total u.length v.length with hLe | hLe
  · exact hFree u hu v hv
      (List.prefix_of_prefix_length_le hul hvl hLe)
  · exact (hFree v hv u hu
      (List.prefix_of_prefix_length_le hvl hul hLe)).symm

/- Where the word ends, and what is behind it. -/
theorem PrefixFree.cut
    (hFree : PrefixFree L)
    {u v a b : List α}
    (hu : u ∈ L)
    (hv : v ∈ L)
    (hEq : u ++ a = v ++ b) :
    u = v ∧ a = b := by
  have hSame := hFree.unique hu hv
    (l := u ++ a) ⟨a, rfl⟩ ⟨b, hEq.symm⟩
  subst hSame
  exact ⟨rfl, List.append_cancel_left hEq⟩

theorem PrefixFree.mul
    (hL : PrefixFree L)
    (hM : PrefixFree M) :
    PrefixFree (L * M) := by
  intro u hu v hv hPrefix
  rcases Language.mem_mul.mp hu with ⟨a, ha, b, hb, rfl⟩
  rcases Language.mem_mul.mp hv with ⟨c, hc, d, hd, rfl⟩
  rcases hPrefix with ⟨t, hEq⟩
  rw [List.append_assoc] at hEq
  rcases hL.cut ha hc hEq with ⟨rfl, hRest⟩
  rw [hM b hb d hd ⟨t, hRest⟩]

theorem ahead_one (l : List α) :
    Ahead (1 : Language α) l :=
  ⟨[], Language.nil_mem_one, List.nil_prefix⟩

/- First a word of one language, then one of the other. -/
theorem ahead_mul {l : List α} :
    Ahead (L * M) l ↔
      ∃ u ∈ L, ∃ rest, l = u ++ rest ∧ Ahead M rest := by
  constructor
  · rintro ⟨w, hw, t, rfl⟩
    rcases Language.mem_mul.mp hw with ⟨u, hu, v, hv, rfl⟩
    exact ⟨u, hu, v ++ t, List.append_assoc _ _ _, v, hv,
      ⟨t, rfl⟩⟩
  · rintro ⟨u, hu, rest, rfl, v, hv, t, rfl⟩
    exact ⟨u ++ v, Language.append_mem_mul hu hv, t,
      List.append_assoc _ _ _⟩

/- Behind a word the second language decides. -/
theorem PrefixFree.ahead_append
    (hFree : PrefixFree L)
    {u rest : List α}
    (hu : u ∈ L) :
    Ahead (L * M) (u ++ rest) ↔ Ahead M rest := by
  rw [ahead_mul]
  constructor
  · rintro ⟨v, hv, rest', hEq, hAhead⟩
    rcases hFree.cut hu hv hEq with ⟨-, rfl⟩
    exact hAhead
  · intro hAhead
    exact ⟨u, hu, rest, rfl, hAhead⟩

------------------------------------------------------------
-- Terminated Words
------------------------------------------------------------

/- The words up to the first `z`. -/
def Terminated (z : α) : Language α :=
  {w | ∃ body, z ∉ body ∧ w = body ++ [z]}

theorem prefixFree_terminated (z : α) :
    PrefixFree (Terminated z) := by
  rintro u ⟨a, ha, rfl⟩ v ⟨b, hb, rfl⟩ ⟨t, hEq⟩
  rw [List.append_assoc] at hEq
  rcases List.append_eq_append_iff.mp hEq with
    ⟨c, rfl, hRest⟩ | ⟨c, rfl, hRest⟩
  · cases c with
    | nil => simp
    | cons x c =>
        have hx := (List.cons_eq_cons.mp hRest).1
        subst hx
        exact (hb (List.mem_append_right _
          List.mem_cons_self)).elim
  · cases c with
    | nil => simp
    | cons x c =>
        have hx := (List.cons_eq_cons.mp hRest).1
        subst hx
        exact (ha (List.mem_append_right _
          List.mem_cons_self)).elim

theorem ahead_terminated
    {z : α} {l : List α} :
    Ahead (Terminated z) l ↔ z ∈ l := by
  constructor
  · rintro ⟨w, ⟨body, -, rfl⟩, t, rfl⟩
    simp
  · intro hMem
    rcases List.eq_append_cons_of_mem hMem with
      ⟨body, rest, rfl, hNot⟩
    exact ⟨body ++ [z], ⟨body, hNot, rfl⟩, rest, by simp⟩

/-
  A language that a word stays ahead of, whatever is put in
  front of it.
-/
def Eager (L : Language α) : Prop :=
  ∀ w ∈ L, ∀ d, Ahead L (d ++ w)

theorem eager_one : Eager (1 : Language α) :=
  fun _ _ _ => ahead_one _

theorem eager_of_length
    {n : Nat}
    (hWords : ∀ w, w ∈ L ↔ w.length = n) :
    Eager L := by
  intro w hw d
  have hLen := (hWords w).mp hw
  refine ⟨(d ++ w).take n, (hWords _).mpr ?_,
    List.take_prefix _ _⟩
  rw [List.length_take, List.length_append, hLen]
  omega

theorem Eager.terminated
    (hEager : Eager L)
    (z : α) :
    Eager (Terminated z * L) := by
  intro w hw d
  rcases Language.mem_mul.mp hw with
    ⟨_, ⟨body, hBody, rfl⟩, v, hv, rfl⟩
  rcases List.eq_append_cons_of_mem
      (show z ∈ d ++ body ++ [z] by simp) with
    ⟨a, b, hSplit, hNot⟩
  refine ahead_mul.mpr
    ⟨a ++ [z], ⟨a, hNot, rfl⟩, b ++ v, ?_, hEager v hv b⟩
  calc
    d ++ (body ++ [z] ++ v) = (d ++ body ++ [z]) ++ v := by
      simp
    _ = (a ++ z :: b) ++ v := by rw [hSplit]
    _ = a ++ [z] ++ (b ++ v) := by simp

/- No word is left when one is put behind a terminator. -/
def Unshifted (z : α) (L : Language α) : Prop :=
  ∀ w ∈ L, ∀ d, d ++ z :: w ∉ L

theorem unshifted_one (z : α) :
    Unshifted z (1 : Language α) := by
  intro w _ d hMem
  rw [Language.mem_one] at hMem
  simp at hMem

theorem unshifted_of_length
    {n : Nat} {z : α}
    (hLength : ∀ w ∈ L, w.length = n) :
    Unshifted z L := by
  intro w hw d hMem
  have hLong := hLength _ hMem
  rw [List.length_append, List.length_cons, hLength w hw]
    at hLong
  omega

theorem Unshifted.terminated
    {z : α}
    (hL : Unshifted z L) :
    Unshifted z (Terminated z * L) := by
  intro w hw d hMem
  rcases Language.mem_mul.mp hw with
    ⟨_, ⟨body, hBody, rfl⟩, v, hv, rfl⟩
  rcases Language.mem_mul.mp hMem with
    ⟨_, ⟨front, hFront, rfl⟩, v', hv', hEq⟩
  -- the first word ends at the terminator at the latest
  rcases List.eq_append_cons_of_mem
      (show z ∈ d ++ [z] by simp) with
    ⟨a, b, hSplit, hNot⟩
  have hWhole :
      (front ++ [z]) ++ v' =
        (a ++ [z]) ++ ((b ++ body) ++ z :: v) := by
    calc
      front ++ [z] ++ v' = d ++ z :: (body ++ [z] ++ v) :=
        hEq
      _ = (d ++ [z]) ++ (body ++ [z] ++ v) := by simp
      _ = (a ++ z :: b) ++ (body ++ [z] ++ v) := by
        rw [hSplit]
      _ = _ := by simp
  rcases (prefixFree_terminated z).cut ⟨front, hFront, rfl⟩
    ⟨a, hNot, rfl⟩ hWhole with ⟨-, hRest⟩
  exact hL v hv _ (hRest ▸ hv')

------------------------------------------------------------
-- Readers
------------------------------------------------------------

/-
  The answers of a reader: it is done and leaves a list, it
  wants more, or it refuses.
-/
structure Answers (α ρ : Type*) where
  done : List α → ρ → Prop
  more : ρ → Prop
  refused : ρ → Prop

/-
  Where a list fits, the reader is done behind a word and
  wants more while none is ahead. It refuses the others.
-/
structure Reads
    {ρ : Type*}
    (A : Answers α ρ)
    (L : Language α)
    (Fit : List α → Prop)
    (run : List α → ρ) : Prop where
  done :
    ∀ u ∈ L, ∀ rest, Fit (u ++ rest) →
      A.done rest (run (u ++ rest))
  more : ∀ l, ¬Ahead L l → Fit l → A.more (run l)
  refused : ∀ l, ¬Fit l → A.refused (run l)

/- The list fits, and so does what is behind the word. -/
def FitsBoth
    (L : Language α)
    (Fit Behind : List α → Prop)
    (l : List α) : Prop :=
  Fit l ∧ ∀ u ∈ L, ∀ rest, l = u ++ rest → Behind rest

section Readers

variable {ρ : Type*} {A : Answers α ρ}
variable {Fit Behind : List α → Prop} {run : List α → ρ}

/- A reader that goes on as another one behind a word. -/
theorem Reads.mul
    (hFree : PrefixFree L)
    (hMore : ∀ l, ¬Ahead L l → Fit l → A.more (run l))
    (hRefused : ∀ l, ¬Fit l → A.refused (run l))
    (hGoOn :
      ∀ u ∈ L, ∀ rest, Fit (u ++ rest) →
        ∃ next,
          run (u ++ rest) = next rest ∧
            Reads A M Behind next) :
    Reads A (L * M) (FitsBoth L Fit Behind) run where
  done := by
    intro w hw rest hFit
    rcases Language.mem_mul.mp hw with ⟨u, hu, v, hv, rfl⟩
    rw [List.append_assoc] at hFit ⊢
    rcases hGoOn u hu _ hFit.1 with ⟨next, hRun, hNext⟩
    rw [hRun]
    exact hNext.done v hv rest (hFit.2 u hu _ rfl)
  more := by
    intro l hNone hFit
    by_cases hAhead : Ahead L l
    · rcases hAhead with ⟨u, hu, rest, rfl⟩
      rcases hGoOn u hu _ hFit.1 with ⟨next, hRun, hNext⟩
      rw [hRun]
      exact hNext.more rest
        (fun h => hNone ((hFree.ahead_append hu).mpr h))
        (hFit.2 u hu rest rfl)
    · exact hMore l hAhead hFit.1
  refused := by
    intro l hNot
    by_cases hFit : Fit l
    · have hBehind :
          ∃ u ∈ L, ∃ rest, l = u ++ rest ∧ ¬Behind rest := by
        by_contra hAll
        refine hNot ⟨hFit, fun u hu rest hEq => ?_⟩
        by_contra hOne
        exact hAll ⟨u, hu, rest, hEq, hOne⟩
      rcases hBehind with ⟨u, hu, rest, rfl, hOne⟩
      rcases hGoOn u hu rest hFit with ⟨next, hRun, hNext⟩
      rw [hRun]
      exact hNext.refused rest hOne
    · exact hRefused l hFit

/- There is no word to read in front. -/
theorem Reads.one_mul
    (hFit : ∀ l, Fit l)
    (hReads : Reads A M Behind run) :
    Reads A (1 * M) (FitsBoth 1 Fit Behind) run := by
  apply Reads.mul prefixFree_one
  · intro l hNone
    exact (hNone (ahead_one l)).elim
  · intro l hNot
    exact (hNot (hFit l)).elim
  · intro u hu rest _
    rw [(Language.mem_one u).mp hu]
    exact ⟨run, rfl, hReads⟩

end Readers

end Words
