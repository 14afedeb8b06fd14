import GenWqe.Lib.Bits

/-
  Readers of bit streams. A reader carries the proof that it
  looks at no bit behind those it takes, so that whatever is
  built from readers does not either.

  Key definitions include:
    * `BitReader`, a monad
    * `BitReader.bit`, `BitReader.nat`, `BitReader.fail`

  Main results:
    * `BitReader.run_append`
    * `BitReader.run_unique`
-/

------------------------------------------------------------
-- Readers
------------------------------------------------------------

/-
  What is read from the front of a bit string, with the bits
  that are left. The same is read wherever the bits taken
  stand in front.
-/
structure BitReader (α : Type) where
  run : List Bool → Option (α × List Bool)
  taken :
    ∀ {bits : List Bool} {x : α} {rest : List Bool},
      run bits = some (x, rest) →
        ∃ used,
          bits = used ++ rest ∧
            ∀ more, run (used ++ more) = some (x, more)

namespace BitReader

variable {α β : Type}

/- Nothing is read. -/
protected def pure (x : α) : BitReader α where
  run bits := some (x, bits)
  taken := by
    intro bits y rest hRun
    cases hRun
    exact ⟨[], rfl, fun _ => rfl⟩

/- One reader behind the other. -/
protected def bind
    (r : BitReader α) (f : α → BitReader β) :
    BitReader β where
  run bits := (r.run bits).bind fun p => (f p.1).run p.2
  taken := by
    intro bits y rest hRun
    rcases Option.bind_eq_some_iff.mp hRun with
      ⟨⟨x, middle⟩, hFirst, hNext⟩
    rcases r.taken hFirst with ⟨used, rfl, hUsed⟩
    rcases (f x).taken hNext with ⟨used', rfl, hUsed'⟩
    refine ⟨used ++ used', by simp, fun more => ?_⟩
    rw [List.append_assoc, hUsed, Option.bind_some]
    exact hUsed' more

instance : Monad BitReader where
  pure := BitReader.pure
  bind := BitReader.bind

/- No bits are accepted. -/
def fail : BitReader α where
  run _ := none
  taken := by
    intro bits x rest hRun
    cases hRun

/- The next bit. -/
def bit : BitReader Bool where
  run bits := bits.head?.map fun b => (b, bits.tail)
  taken := by
    intro bits x rest hRun
    cases bits with
    | nil => cases hRun
    | cons b bits =>
        cases hRun
        exact ⟨[x], rfl, fun _ => rfl⟩

/- A value, if there is one. -/
def ofOption : Option α → BitReader α
  | none => fail
  | some x => pure x

/- A number of `n` bits, the least significant one first. -/
def nat : Nat → BitReader Nat
  | 0 => pure 0
  | n + 1 => do
      let b ← bit
      let value ← nat n
      pure (b.toNat + 2 * value)

/- A number of values read one behind the other. -/
def list (r : BitReader α) : Nat → BitReader (List α)
  | 0 => pure []
  | n + 1 => do
      let x ← r
      let xs ← r.list n
      pure (x :: xs)

@[simp] theorem run_pure (x : α) (bits : List Bool) :
    (pure x : BitReader α).run bits = some (x, bits) := rfl

@[simp] theorem run_bind
    (r : BitReader α)
    (f : α → BitReader β)
    (bits : List Bool) :
    (r >>= f).run bits =
      (r.run bits).bind fun p => (f p.1).run p.2 := rfl

@[simp] theorem run_fail (bits : List Bool) :
    (fail : BitReader α).run bits = none := rfl

@[simp] theorem run_bit_cons (b : Bool) (bits : List Bool) :
    bit.run (b :: bits) = some (b, bits) := rfl

/- More bits behind those that are read change nothing. -/
theorem run_append
    {r : BitReader α}
    {bits rest : List Bool}
    {x : α}
    (hRun : r.run bits = some (x, rest))
    (more : List Bool) :
    r.run (bits ++ more) = some (x, rest ++ more) := by
  rcases r.taken hRun with ⟨used, rfl, hUsed⟩
  rw [List.append_assoc]
  exact hUsed (rest ++ more)

/- The same for a reader that has taken all. -/
theorem run_all_append
    {r : BitReader α}
    {used : List Bool}
    {x : α}
    (hRun : r.run used = some (x, []))
    (more : List Bool) :
    r.run (used ++ more) = some (x, more) :=
  run_append hRun more

/-
  Of two readings of a stream, each of which has taken all it
  was given, both have read the same.
-/
theorem run_unique
    {r : BitReader α}
    {used used' more more' : List Bool}
    {x x' : α}
    (hRun : r.run used = some (x, []))
    (hRun' : r.run used' = some (x', []))
    (hSame : used ++ more = used' ++ more') :
    used = used' ∧ x = x' ∧ more = more' := by
  have hHere := run_all_append hRun more
  have hThere := run_all_append hRun' more'
  rw [← hSame, hHere] at hThere
  cases hThere
  exact ⟨List.append_cancel_right hSame, rfl, rfl⟩

/- Skipping leaves the bits behind. -/
theorem run_nat
    {n : Nat}
    {bits : List Bool}
    (hLen : bits.length = n) :
    ∃ value, (nat n).run bits = some (value, []) := by
  induction n generalizing bits with
  | zero =>
      rw [List.length_eq_zero_iff.mp hLen]
      exact ⟨0, rfl⟩
  | succ n ih =>
      rcases bits with _ | ⟨b, bits⟩
      · cases hLen
      · rcases ih (Nat.succ.inj hLen) with ⟨value, hValue⟩
        refine ⟨b.toNat + 2 * value, ?_⟩
        simp [nat, hValue]

end BitReader
