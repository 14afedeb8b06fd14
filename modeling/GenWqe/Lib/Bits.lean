import Mathlib.Tactic

/-
  Bit view of byte strings, least significant bit first, as
  the bit packing of RFC 1951 reads them.

  Key definitions include:
    * `byteBits`
    * `bitsOf`
    * `padByte`

  Main results:
    * `bitsOf_append`, `bitsOf_take`, `bitsOf_drop`
    * `take_bitsOf`
    * `byteBits_and_mask`
    * `padByte_bitsOf_append`
-/

------------------------------------------------------------
-- Bits of Bytes
------------------------------------------------------------

namespace Bits

/- The eight bits of a byte. -/
def byteBits (b : UInt8) : List Bool :=
  (List.range 8).map (fun i => b.toNat.testBit i)

/- The bits of a byte string, byte after byte. -/
def bitsOf : List UInt8 → List Bool
  | [] => []
  | b :: bs => byteBits b ++ bitsOf bs

@[simp] theorem length_byteBits (b : UInt8) :
    (byteBits b).length = 8 := by
  simp [byteBits]

@[simp] theorem bitsOf_nil : bitsOf [] = [] := rfl

@[simp] theorem bitsOf_cons (b : UInt8) (bs : List UInt8) :
    bitsOf (b :: bs) = byteBits b ++ bitsOf bs := rfl

@[simp] theorem length_bitsOf (bs : List UInt8) :
    (bitsOf bs).length = 8 * bs.length := by
  induction bs with
  | nil => rfl
  | cons b bs ih =>
      simp [ih]
      omega

@[simp] theorem bitsOf_append (as bs : List UInt8) :
    bitsOf (as ++ bs) = bitsOf as ++ bitsOf bs := by
  induction as with
  | nil => rfl
  | cons a as ih => simp [ih]

/- Dropping bytes drops eight bits each. -/
theorem bitsOf_isPrefix
    {as bs : List UInt8} (hPrefix : as <+: bs) :
    bitsOf as <+: bitsOf bs := by
  rcases hPrefix with ⟨rest, rfl⟩
  rw [bitsOf_append]
  exact List.prefix_append _ _

theorem bitsOf_drop (k : Nat) (bs : List UInt8) :
    bitsOf (bs.drop k) = (bitsOf bs).drop (8 * k) := by
  induction bs generalizing k with
  | nil => simp
  | cons b bs ih =>
      cases k with
      | zero => simp
      | succ k =>
          have hSplit :
              8 * (k + 1) =
                (byteBits b).length + 8 * k := by
            simp
            omega
          rw [List.drop_succ_cons, ih, bitsOf_cons, hSplit,
            List.drop_append]
          simp

/- Taking bytes takes eight bits each. -/
theorem bitsOf_take (k : Nat) (bs : List UInt8) :
    bitsOf (bs.take k) = (bitsOf bs).take (8 * k) := by
  induction bs generalizing k with
  | nil => simp
  | cons b bs ih =>
      cases k with
      | zero => simp
      | succ k =>
          have hSplit :
              8 * (k + 1) =
                (byteBits b).length + 8 * k := by
            simp
            omega
          rw [List.take_succ_cons, bitsOf_cons, ih,
            bitsOf_cons, hSplit, List.take_append]
          simp

/-
  Any number of leading bits: the whole bytes, and the low
  bits of the byte behind them.
-/
theorem take_bitsOf
    {n : Nat}
    {bs : List UInt8}
    (hn : n ≤ 8 * bs.length) :
    (bitsOf bs).take n =
      bitsOf (bs.take (n / 8)) ++
        (byteBits (bs.getD (n / 8) 0)).take (n % 8) := by
  induction bs generalizing n with
  | nil =>
      have hZero : n = 0 := by simpa using hn
      simp [hZero]
  | cons b bs ih =>
      rw [List.length_cons] at hn
      by_cases hLow : n < 8
      · rw [Nat.div_eq_of_lt hLow, Nat.mod_eq_of_lt hLow,
          bitsOf_cons,
          List.take_append_of_le_length (by simp; omega)]
        simp
      · obtain ⟨m, rfl⟩ : ∃ m, n = m + 8 :=
          ⟨n - 8, by omega⟩
        have hRest := ih (n := m) (by omega)
        have hSplit :
            m + 8 = (byteBits b).length + m := by
          simp
          omega
        rw [Nat.add_div_right _ (by decide),
          Nat.add_mod_right, List.take_succ_cons,
          List.getD_cons_succ, bitsOf_cons, bitsOf_cons,
          List.append_assoc, ← hRest, hSplit,
          List.take_append]
        simp

------------------------------------------------------------
-- Low Bits of a Byte
------------------------------------------------------------

/- The bit of a byte at an index, no bit past the eighth. -/
theorem byteBits_getElem?
    (b : UInt8) (i : Nat) :
    (byteBits b)[i]? =
      if i < 8 then some (b.toNat.testBit i) else none := by
  by_cases hi : i < 8
  · simp [byteBits, hi]
  · simp [byteBits, hi]

/-
  Masking a byte with `2 ^ n - 1` keeps its `n` low bits and
  clears the others.
-/
theorem byteBits_and_mask
    (b mask : UInt8)
    (n : Nat)
    (hn : n ≤ 8)
    (hMask : mask.toNat = 2 ^ n - 1) :
    byteBits (b &&& mask) =
      (byteBits b).take n ++
        List.replicate (8 - n) false := by
  apply List.ext_getElem?
  intro i
  rw [byteBits_getElem?]
  have hBit :
      (b &&& mask).toNat.testBit i =
        (b.toNat.testBit i && decide (i < n)) := by
    rw [UInt8.toNat_and, hMask, Nat.testBit_and,
      Nat.testBit_two_pow_sub_one]
  rw [hBit]
  by_cases hi : i < n
  · rw [List.getElem?_append_left (by simp; omega),
      List.getElem?_take_of_lt hi, byteBits_getElem?]
    simp only [hi, decide_true, Bool.and_true]
  · rw [List.getElem?_append_right (by simp; omega),
      List.getElem?_replicate]
    have hLen :
        ((byteBits b).take n).length = n := by
      simp
      omega
    rw [hLen]
    by_cases hLow : i < 8
    · rw [if_pos hLow, if_pos (by omega)]
      simp [hi]
    · rw [if_neg hLow, if_neg (by omega)]

/- A byte has its own eight bits. -/
theorem byteBits_injective : Function.Injective byteBits := by
  intro a b hBits
  apply UInt8.toNat_inj.mp
  apply Nat.eq_of_testBit_eq
  intro i
  by_cases hLt : i < 8
  · have hAt := congrArg (fun bits => bits[i]?) hBits
    simp only [byteBits_getElem?, if_pos hLt,
      Option.some.injEq] at hAt
    exact hAt
  · have hHigh :
        ∀ c : UInt8, c.toNat.testBit i = false := by
      intro c
      apply Nat.testBit_lt_two_pow
      calc c.toNat < 2 ^ 8 := c.toNat_lt
        _ ≤ 2 ^ i :=
          Nat.pow_le_pow_right (by decide) (by omega)
    rw [hHigh a, hHigh b]

/- And so has a byte string. -/
theorem bitsOf_injective : Function.Injective bitsOf := by
  intro as bs hBits
  induction as generalizing bs with
  | nil =>
      have hLen := congrArg List.length hBits
      simp only [length_bitsOf, List.length_nil] at hLen
      exact (List.length_eq_zero_iff.mp (by omega)).symm
  | cons a as ih =>
      cases bs with
      | nil =>
          have hLen := congrArg List.length hBits
          simp at hLen
      | cons b bs =>
          rcases List.append_inj hBits (by simp) with
            ⟨hByte, hRest⟩
          rw [byteBits_injective hByte, ih hRest]

------------------------------------------------------------
-- Byte Padding
------------------------------------------------------------

/- Zero bits up to the next byte boundary. -/
def padByte (bits : List Bool) : List Bool :=
  bits ++
    List.replicate ((8 - bits.length % 8) % 8) false

/- Whole bytes in front do not change the padding. -/
theorem padByte_bitsOf_append
    (bs : List UInt8) (bits : List Bool) :
    padByte (bitsOf bs ++ bits) =
      bitsOf bs ++ padByte bits := by
  have hMod :
      (bitsOf bs ++ bits).length % 8 = bits.length % 8 := by
    simp
  unfold padByte
  rw [hMod, List.append_assoc]

/- A padded bit string is a whole number of bytes long. -/
theorem length_padByte_mod (bits : List Bool) :
    (padByte bits).length % 8 = 0 := by
  simp only [padByte, List.length_append,
    List.length_replicate]
  omega

end Bits
