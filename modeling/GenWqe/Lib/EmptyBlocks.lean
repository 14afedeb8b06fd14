import GenWqe.Lib.BlockBits

/-
  Empty blocks of a deflate stream, the end of a stream made
  of them, and numbers read most significant bit first.

  Key definitions include:
    * `EmptyBlock`, `EmptyEnding`
    * `msbValue`

  Main results:
    * `EmptyBlock.unique`, `EmptyEnding.unique`
    * `msbValue_inj`
-/

------------------------------------------------------------
-- Bits at a Position
------------------------------------------------------------

namespace Bits

/- The bit of a byte string at a position. -/
theorem bitsOf_getElem? (bs : List UInt8) (i : Nat) :
    (bitsOf bs)[i]? =
      bs[i / 8]?.map fun b => b.toNat.testBit (i % 8) := by
  induction bs generalizing i with
  | nil => simp
  | cons b bs ih =>
      rw [bitsOf_cons]
      by_cases hLow : i < 8
      · rw [List.getElem?_append_left (by simpa using hLow),
          byteBits_getElem?, if_pos hLow,
          Nat.div_eq_of_lt hLow, Nat.mod_eq_of_lt hLow]
        rfl
      · rw [List.getElem?_append_right (by simp; omega), ih,
          length_byteBits]
        obtain ⟨j, rfl⟩ : ∃ j, i = j + 8 :=
          ⟨i - 8, by omega⟩
        rw [Nat.add_sub_cancel, Nat.add_mod_right,
          Nat.add_div_right _ (by decide),
          List.getElem?_cons_succ]

/- The first byte boundary from a position on. -/
def byteAlign (pos : Nat) : Nat :=
  (pos + 7) / 8 * 8

/- The number read from bits, the first the most significant. -/
def msbValue (bits : List Bool) : Nat :=
  bits.foldl (fun value b => 2 * value + b.toNat) 0

theorem foldl_msb (start : Nat) (bits : List Bool) :
    bits.foldl (fun value b => 2 * value + b.toNat) start =
      start * 2 ^ bits.length + msbValue bits := by
  unfold msbValue
  induction bits generalizing start with
  | nil => simp
  | cons b bits ih =>
      rw [List.foldl_cons, List.foldl_cons, ih, ih (2 * 0 + _),
        List.length_cons, pow_succ]
      ring

theorem msbValue_cons (b : Bool) (bits : List Bool) :
    msbValue (b :: bits) =
      b.toNat * 2 ^ bits.length + msbValue bits := by
  rw [← foldl_msb]
  simp [msbValue]

theorem msbValue_lt (bits : List Bool) :
    msbValue bits < 2 ^ bits.length := by
  induction bits with
  | nil => simp [msbValue]
  | cons b bits ih =>
      rw [msbValue_cons, List.length_cons, pow_succ]
      cases b <;> simp only [Bool.toNat_true,
        Bool.toNat_false] <;> omega

/- Bits of one length are told apart by their numbers. -/
theorem msbValue_inj
    {bits bits' : List Bool}
    (hLen : bits.length = bits'.length)
    (hValue : msbValue bits = msbValue bits') :
    bits = bits' := by
  induction bits generalizing bits' with
  | nil => exact (List.length_eq_zero_iff.mp hLen.symm).symm
  | cons b bits ih =>
      cases bits' with
      | nil => cases hLen
      | cons b' bits' =>
          simp only [List.length_cons,
            Nat.add_right_cancel_iff] at hLen
          have hLow := msbValue_lt bits
          have hLow' := msbValue_lt bits'
          rw [msbValue_cons, msbValue_cons, hLen] at hValue
          rw [hLen] at hLow
          cases b <;> cases b' <;>
            simp only [Bool.toNat_true, Bool.toNat_false,
              Nat.zero_mul, Nat.one_mul, Nat.zero_add]
              at hValue
          · rw [ih hLen hValue]
          · omega
          · omega
          · rw [ih hLen (Nat.add_left_cancel hValue)]

end Bits

------------------------------------------------------------
-- Empty Blocks
------------------------------------------------------------

namespace BlockBits

open Bits

/- The kinds of blocks that need no tree. -/
inductive BlockKind where
  | fixed
  | stored
  deriving DecidableEq

/-
  An empty block at a position, and the position behind it: a
  fixed one that consists of its end, or a stored one that
  has no bytes, its length on a byte boundary.
-/
inductive EmptyBlock
    (bits : List Bool) (final : Bool) (pos : Nat) :
    BlockKind → Nat → Prop
  | fixed :
      [final, true, false] <+: bits.drop pos →
      endOfBlock <+: bits.drop (pos + 3) →
      EmptyBlock bits final pos .fixed (pos + 10)
  | stored :
      [final, false, false] <+: bits.drop pos →
      bitsOf emptyStored <+:
        bits.drop (byteAlign (pos + 3)) →
      EmptyBlock bits final pos .stored
        (byteAlign (pos + 3) + 32)

/-
  Empty blocks up to the final one, its kind, and the position
  behind it.
-/
inductive EmptyEnding (bits : List Bool) :
    Nat → BlockKind → Nat → Prop
  | final
      {pos last : Nat} {kind : BlockKind} :
      EmptyBlock bits true pos kind last →
      EmptyEnding bits pos kind last
  | skip
      {pos next last : Nat} {kind kind' : BlockKind} :
      EmptyBlock bits false pos kind next →
      EmptyEnding bits next kind' last →
      EmptyEnding bits pos kind' last

section Unique

variable {bits : List Bool} {final final' : Bool}
variable {pos last last' : Nat} {kind kind' : BlockKind}

/- A position holds one header. -/
theorem header_unique
    {b₀ b₁ b₂ c₀ c₁ c₂ : Bool}
    (hHere : [b₀, b₁, b₂] <+: bits.drop pos)
    (hThere : [c₀, c₁, c₂] <+: bits.drop pos) :
    b₀ = c₀ ∧ b₁ = c₁ ∧ b₂ = c₂ := by
  have hSame : [b₀, b₁, b₂] = [c₀, c₁, c₂] :=
    (List.prefix_of_prefix_length_le hHere hThere
      (Nat.le_refl 3)).eq_of_length rfl
  simpa using hSame

/- Which block starts at a position is unique. -/
theorem EmptyBlock.unique
    (hBlock : EmptyBlock bits final pos kind last)
    (hBlock' : EmptyBlock bits final' pos kind' last') :
    final = final' ∧ kind = kind' ∧ last = last' := by
  cases hBlock with
  | fixed hHead _ =>
      cases hBlock' with
      | fixed hHead' _ =>
          exact ⟨(header_unique hHead hHead').1, rfl, rfl⟩
      | stored hHead' _ =>
          exact absurd (header_unique hHead hHead').2.1
            (by decide)
  | stored hHead _ =>
      cases hBlock' with
      | fixed hHead' _ =>
          exact absurd (header_unique hHead hHead').2.1
            (by decide)
      | stored hHead' _ =>
          exact ⟨(header_unique hHead hHead').1, rfl, rfl⟩

/- So is where the stream ends. -/
theorem EmptyEnding.unique
    (hEnding : EmptyEnding bits pos kind last)
    (hEnding' : EmptyEnding bits pos kind' last') :
    kind = kind' ∧ last = last' := by
  induction hEnding with
  | final hBlock =>
      cases hEnding' with
      | final hBlock' => exact (hBlock.unique hBlock').2
      | skip hBlock' _ =>
          exact absurd (hBlock.unique hBlock').1 (by decide)
  | skip hBlock _ ih =>
      cases hEnding' with
      | final hBlock' =>
          exact absurd (hBlock.unique hBlock').1 (by decide)
      | skip hBlock' hRest' =>
          rcases hBlock.unique hBlock' with ⟨_, _, hNext⟩
          exact ih (hNext ▸ hRest')

/- A block lies within the bits, and takes ten of them. -/
theorem EmptyBlock.bounds
    (hBlock : EmptyBlock bits final pos kind last) :
    pos + 10 ≤ last ∧ last ≤ bits.length := by
  cases hBlock with
  | fixed _ hBody =>
      have hLen := hBody.length_le
      simp only [endOfBlock, List.length_replicate,
        List.length_drop] at hLen
      omega
  | stored _ hBody =>
      have hLen := hBody.length_le
      simp only [length_bitsOf, emptyStored,
        List.length_cons, List.length_nil,
        List.length_drop] at hLen
      unfold byteAlign at *
      omega

theorem EmptyEnding.bounds
    (hEnding : EmptyEnding bits pos kind last) :
    pos + 10 ≤ last ∧ last ≤ bits.length := by
  induction hEnding with
  | final hBlock => exact hBlock.bounds
  | skip hBlock _ ih =>
      have hBounds := hBlock.bounds
      omega

/- An empty stored block ends with a byte. -/
theorem EmptyEnding.aligned
    (hEnding : EmptyEnding bits pos kind last)
    (hStored : kind = .stored) :
    last % 8 = 0 ∧ 32 ≤ last := by
  induction hEnding with
  | final hBlock =>
      cases hBlock with
      | fixed _ _ => cases hStored
      | stored _ _ =>
          unfold byteAlign
          omega
  | skip _ _ ih => exact ih hStored

end Unique

end BlockBits
