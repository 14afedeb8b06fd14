import Mathlib.Data.List.Basic

/-
  The account of a filter over byte strings: what it was
  offered and has taken, what it has given and may still give.

  Key definitions include:
    * `Account` and `Account.Moves`

  Main results:
    * `Account.Moves.trans`
    * `Account.Moves.availOut_add`
-/

------------------------------------------------------------
-- Accounts
------------------------------------------------------------

variable {α : Type*}

/-
  The input offered and the number taken so far; the output
  given, the space that is left, and the number given.
-/
structure Account (α : Type*) where
  input : List α
  totalIn : Nat
  output : List α
  availOut : Nat
  totalOut : Nat

namespace Account

/- The account after `n` items of the input were taken. -/
def take (n : Nat) (a : Account α) : Account α :=
  { a with
    input := a.input.drop n
    totalIn := a.totalIn + n }

/- The account after `out` was given. -/
def give (out : List α) (a : Account α) : Account α :=
  { a with
    output := a.output ++ out
    availOut := a.availOut - out.length
    totalOut := a.totalOut + out.length }

/-
  Between two accounts only offered input was taken, and what
  was given had space.
-/
def Moves (a b : Account α) : Prop :=
  ∃ n out,
    n ≤ a.input.length ∧ out.length ≤ a.availOut ∧
      b = (a.take n).give out

@[simp] theorem take_zero (a : Account α) :
    a.take 0 = a := by
  simp [take]

@[simp] theorem give_nil (a : Account α) :
    a.give [] = a := by
  simp [give]

theorem Moves.refl (a : Account α) : a.Moves a :=
  ⟨0, [], Nat.zero_le _, Nat.zero_le _, by simp⟩

theorem Moves.of_take
    {n : Nat}
    {a : Account α}
    (hLe : n ≤ a.input.length) :
    a.Moves (a.take n) :=
  ⟨n, [], hLe, Nat.zero_le _, by simp⟩

theorem Moves.of_give
    {out : List α}
    {a : Account α}
    (hLe : out.length ≤ a.availOut) :
    a.Moves (a.give out) :=
  ⟨0, out, Nat.zero_le _, hLe, by simp⟩

theorem Moves.trans
    {a b c : Account α}
    (hFirst : a.Moves b)
    (hSecond : b.Moves c) :
    a.Moves c := by
  rcases hFirst with ⟨n, out, hTake, hGive, rfl⟩
  rcases hSecond with ⟨n', out', hTake', hGive', rfl⟩
  simp only [take, give, List.length_drop] at hTake' hGive'
  refine ⟨n + n', out ++ out', by omega, ?_, ?_⟩
  · rw [List.length_append]
    omega
  · simp only [take, give, List.drop_drop,
      List.length_append, List.append_assoc, Nat.add_assoc,
      Nat.sub_sub]

section Moves

variable {a b : Account α}

/- Output only grows. -/
theorem Moves.output_prefix (hMoves : a.Moves b) :
    a.output <+: b.output := by
  rcases hMoves with ⟨n, out, _, _, rfl⟩
  exact List.prefix_append _ _

/- What was given and what may be given add up. -/
theorem Moves.availOut_add (hMoves : a.Moves b) :
    b.availOut + b.output.length =
      a.availOut + a.output.length := by
  rcases hMoves with ⟨n, out, _, hLe, rfl⟩
  simp only [give, take, List.length_append]
  omega

/- Input and output space do not grow. -/
theorem Moves.shrinks (hMoves : a.Moves b) :
    b.input.length ≤ a.input.length ∧
      b.availOut ≤ a.availOut := by
  rcases hMoves with ⟨n, out, _, _, rfl⟩
  simp only [give, take, List.length_drop]
  exact ⟨Nat.sub_le _ _, Nat.sub_le _ _⟩

/- What was taken is what is no longer offered. -/
theorem Moves.input_eq (hMoves : a.Moves b) :
    b.input.length ≤ a.input.length ∧
      b.input =
        a.input.drop (a.input.length - b.input.length) ∧
      b.totalIn =
        a.totalIn + (a.input.length - b.input.length) := by
  rcases hMoves with ⟨n, out, hLe, _, rfl⟩
  simp only [give, take, List.length_drop]
  rw [Nat.sub_sub_self hLe]
  exact ⟨Nat.sub_le _ _, rfl, rfl⟩

/- What was given is what stands behind the old output. -/
theorem Moves.output_eq (hMoves : a.Moves b) :
    b.output =
        a.output ++ b.output.drop a.output.length ∧
      (b.output.drop a.output.length).length ≤ a.availOut ∧
      b.availOut =
        a.availOut -
          (b.output.drop a.output.length).length ∧
      b.totalOut =
        a.totalOut +
          (b.output.drop a.output.length).length := by
  rcases hMoves with ⟨n, out, _, hLe, rfl⟩
  have hDrop :
      (a.output ++ out).drop a.output.length = out :=
    List.drop_left
  simp only [give, take]
  rw [hDrop]
  exact ⟨rfl, hLe, rfl, rfl⟩

end Moves

end Account
