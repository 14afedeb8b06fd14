import Mathlib.Tactic

/-
  Byte memory as a total map from offsets to bytes, with the
  block copies that C programs make on it, and the wrapping
  arithmetic of machine words.

  Key definitions include:
    * `ByteMem`
    * `ByteMem.window`
    * `ByteMem.store`
    * `wrapSub`
    * `asSigned`
    * `le32` and `be32`, `readLe32` and `readBe32`
-/

------------------------------------------------------------
-- Windows and Stores
------------------------------------------------------------

/- A memory holds one byte at every offset. -/
abbrev ByteMem := Nat → UInt8

namespace ByteMem

/- The `n` bytes that start at `off`. -/
def window (m : ByteMem) (off n : Nat) : List UInt8 :=
  (List.range n).map (fun i => m (off + i))

/- Overwrite the bytes from `off` on with `bs`. -/
def store (m : ByteMem) (off : Nat) (bs : List UInt8) :
    ByteMem :=
  fun i =>
    if off ≤ i ∧ i < off + bs.length then
      bs.getD (i - off) 0
    else m i

@[simp] theorem length_window
    (m : ByteMem) (off n : Nat) :
    (m.window off n).length = n := by
  simp [window]

@[simp] theorem window_zero (m : ByteMem) (off : Nat) :
    m.window off 0 = [] := rfl

theorem window_getElem?
    (m : ByteMem) (off n i : Nat) :
    (m.window off n)[i]? =
      if i < n then some (m (off + i)) else none := by
  by_cases hi : i < n
  · simp [window, hi]
  · simp [window, hi]

/- Windows of agreeing memories are equal. -/
theorem window_congr
    {m m' : ByteMem}
    {off n : Nat}
    (hAgree : ∀ i, off ≤ i → i < off + n → m i = m' i) :
    m.window off n = m'.window off n := by
  unfold window
  apply List.map_congr_left
  intro i hi
  have hLt : i < n := List.mem_range.mp hi
  exact hAgree (off + i) (by omega) (by omega)

/- A window splits at every inner offset. -/
theorem window_add
    (m : ByteMem) (off a b : Nat) :
    m.window off (a + b) =
      m.window off a ++ m.window (off + a) b := by
  apply List.ext_getElem?
  intro i
  by_cases hi : i < a
  · rw [List.getElem?_append_left (by simpa using hi)]
    simp only [window_getElem?]
    simp [hi, show i < a + b by omega]
  · rw [List.getElem?_append_right (by simpa using hi)]
    simp only [window_getElem?, length_window]
    by_cases hib : i < a + b
    · simp only [hib, show i - a < b by omega, if_true]
      congr 2
      omega
    · simp [hib, show ¬ i - a < b by omega]

/- A shorter window is the front of a longer one. -/
theorem window_isPrefix
    (m : ByteMem) (off : Nat) {a b : Nat} (hLe : a ≤ b) :
    m.window off a <+: m.window off b := by
  rcases Nat.exists_eq_add_of_le hLe with ⟨k, hK⟩
  rw [hK, window_add]
  exact List.prefix_append _ _

theorem window_succ
    (m : ByteMem) (off n : Nat) :
    m.window off (n + 1) = m off :: m.window (off + 1) n := by
  rw [Nat.add_comm, window_add]
  rfl

theorem drop_window
    (m : ByteMem) (off n k : Nat) :
    (m.window off n).drop k = m.window (off + k) (n - k) := by
  by_cases hk : k ≤ n
  · have hSplit : n = k + (n - k) := by omega
    conv_lhs => rw [hSplit, window_add]
    simp
  · have hZero : n - k = 0 := by omega
    rw [List.drop_eq_nil_of_le (by simp; omega), hZero]
    rfl

theorem take_window
    (m : ByteMem) (off n k : Nat) :
    (m.window off n).take k = m.window off (min k n) := by
  by_cases hk : k ≤ n
  · have hSplit : n = k + (n - k) := by omega
    rw [Nat.min_eq_left hk]
    conv_lhs => rw [hSplit, window_add]
    simp
  · rw [Nat.min_eq_right (by omega),
      List.take_of_length_le (by simp; omega)]

theorem store_inside
    (m : ByteMem) {off i : Nat} {bs : List UInt8}
    (hLo : off ≤ i) (hHi : i < off + bs.length) :
    m.store off bs i = bs.getD (i - off) 0 := by
  simp [store, hLo, hHi]

theorem store_outside
    (m : ByteMem) {off i : Nat} {bs : List UInt8}
    (hOut : i < off ∨ off + bs.length ≤ i) :
    m.store off bs i = m i := by
  unfold store
  rw [if_neg]
  omega

@[simp] theorem store_nil (m : ByteMem) (off : Nat) :
    m.store off [] = m := by
  funext i
  exact store_outside m (by simp; omega)

/- What was stored is read back. -/
theorem window_store_same
    (m : ByteMem) (off : Nat) (bs : List UInt8) :
    (m.store off bs).window off bs.length = bs := by
  apply List.ext_getElem?
  intro i
  rw [window_getElem?]
  by_cases hi : i < bs.length
  · rw [if_pos hi,
      store_inside m (Nat.le_add_right _ _) (by omega),
      Nat.add_sub_cancel_left, List.getD_eq_getElem?_getD,
      List.getElem?_eq_getElem hi]
    rfl
  · rw [if_neg hi, List.getElem?_eq_none (by omega)]

/- A store leaves every window beside it alone. -/
theorem window_store_of_disjoint
    (m : ByteMem) {off off' n : Nat} {bs : List UInt8}
    (hApart : off' + n ≤ off ∨ off + bs.length ≤ off') :
    (m.store off bs).window off' n = m.window off' n := by
  apply window_congr
  intro i hLo hHi
  exact store_outside m (by omega)

/- Storing what is there already changes nothing. -/
theorem store_window_self
    (m : ByteMem) (off n : Nat) :
    m.store off (m.window off n) = m := by
  funext i
  by_cases hIn : off ≤ i ∧ i < off + n
  · rw [store_inside m hIn.1 (by simpa using hIn.2),
      List.getD_eq_getElem?_getD, window_getElem?,
      if_pos (by omega)]
    simp [Nat.add_sub_cancel' hIn.1]
  · exact store_outside m (by simp; omega)

/- Two stores, one behind the other, are one. -/
theorem store_store_append
    (m : ByteMem) (off : Nat) (as bs : List UInt8) :
    (m.store off as).store (off + as.length) bs =
      m.store off (as ++ bs) := by
  funext i
  by_cases hBefore : i < off
  · rw [store_outside _ (by omega),
      store_outside _ (by omega),
      store_outside _ (by omega)]
  · by_cases hFirst : i < off + as.length
    · rw [store_outside _ (by omega),
        store_inside _ (by omega) hFirst,
        store_inside _ (by omega) (by simp; omega),
        List.getD_eq_getElem?_getD,
        List.getD_eq_getElem?_getD,
        List.getElem?_append_left (by omega)]
    · by_cases hLast : i < off + as.length + bs.length
      · rw [store_inside _ (by omega) hLast,
          store_inside _ (by omega) (by simp; omega),
          List.getD_eq_getElem?_getD,
          List.getD_eq_getElem?_getD,
          List.getElem?_append_right (by omega),
          Nat.sub_add_eq]
      · rw [store_outside _ (by omega),
          store_outside _ (by omega),
          store_outside _ (by simp; omega)]

/- Stores side by side can be made in any order. -/
theorem store_comm
    (m : ByteMem)
    {off off' : Nat}
    {as bs : List UInt8}
    (hApart : off + as.length ≤ off') :
    (m.store off' bs).store off as =
      (m.store off as).store off' bs := by
  funext i
  by_cases hIn : off ≤ i ∧ i < off + as.length
  · rw [store_inside _ hIn.1 hIn.2,
      store_outside _ (by omega),
      store_inside _ hIn.1 hIn.2]
  · rw [store_outside _ (by omega)]
    by_cases hBehind : off' ≤ i ∧ i < off' + bs.length
    · rw [store_inside _ hBehind.1 hBehind.2,
        store_inside _ hBehind.1 hBehind.2]
    · rw [store_outside _ (by omega),
        store_outside _ (by omega),
        store_outside _ (by omega)]

end ByteMem

------------------------------------------------------------
-- Machine Words
------------------------------------------------------------

/- Subtraction of unsigned `w`-bit words. -/
def wrapSub (w a b : Nat) : Nat :=
  (a + (2 ^ w - b % 2 ^ w)) % 2 ^ w

/- A `w`-bit word read as a two's complement number. -/
def asSigned (w n : Nat) : Int :=
  if n < 2 ^ (w - 1) then (n : Int) else (n : Int) - 2 ^ w

theorem wrapSub_of_le
    {w a b : Nat} (hle : b ≤ a) (hlt : a < 2 ^ w) :
    wrapSub w a b = a - b := by
  unfold wrapSub
  rw [Nat.mod_eq_of_lt (Nat.lt_of_le_of_lt hle hlt)]
  have hSum : a + (2 ^ w - b) = (a - b) + 2 ^ w := by omega
  rw [hSum, Nat.add_mod_right, Nat.mod_eq_of_lt (by omega)]

theorem wrapSub_of_lt
    {w a b : Nat} (hlt : a < b) (hb : b < 2 ^ w) :
    wrapSub w a b = 2 ^ w - (b - a) := by
  unfold wrapSub
  rw [Nat.mod_eq_of_lt hb, Nat.mod_eq_of_lt (by omega)]
  omega

/-
  A difference of two small words, taken as unsigned and read
  back as signed, is the difference of the numbers.
-/
theorem asSigned_wrapSub
    {a b : Nat} (ha : a < 2 ^ 62) (hb : b < 2 ^ 62) :
    asSigned 64 (wrapSub 64 a b) = (a : Int) - b := by
  by_cases hle : b ≤ a
  · rw [wrapSub_of_le hle (by omega)]
    unfold asSigned
    rw [if_pos (by omega)]
    omega
  · rw [wrapSub_of_lt (by omega) (by omega)]
    unfold asSigned
    rw [if_neg (by omega)]
    omega

/- The four bytes of a word, the low byte first. -/
def le32 (x : UInt32) : List UInt8 :=
  [x.toUInt8, (x >>> 8).toUInt8,
    (x >>> 16).toUInt8, (x >>> 24).toUInt8]

/- The four bytes of a word, the high byte first. -/
def be32 (x : UInt32) : List UInt8 :=
  (le32 x).reverse

@[simp] theorem length_le32 (x : UInt32) :
    (le32 x).length = 4 := rfl

@[simp] theorem length_be32 (x : UInt32) :
    (be32 x).length = 4 := rfl

/- The word in four bytes of a memory, the low byte first. -/
def readLe32 (m : ByteMem) (off : Nat) : UInt32 :=
  UInt32.ofNat
    ((m off).toNat + (m (off + 1)).toNat * 2 ^ 8 +
      (m (off + 2)).toNat * 2 ^ 16 +
      (m (off + 3)).toNat * 2 ^ 24)

/- The word in four bytes of a memory, the high byte first. -/
def readBe32 (m : ByteMem) (off : Nat) : UInt32 :=
  UInt32.ofNat
    ((m (off + 3)).toNat + (m (off + 2)).toNat * 2 ^ 8 +
      (m (off + 1)).toNat * 2 ^ 16 +
      (m off).toNat * 2 ^ 24)

/- The bytes of a word that was put together from bytes. -/
theorem le32_ofNat (a b c d : UInt8) :
    le32
        (UInt32.ofNat
          (a.toNat + b.toNat * 2 ^ 8 + c.toNat * 2 ^ 16 +
            d.toNat * 2 ^ 24)) =
      [a, b, c, d] := by
  have ha := a.toNat_lt
  have hb := b.toNat_lt
  have hc := c.toNat_lt
  have hd := d.toNat_lt
  unfold le32
  simp only [List.cons.injEq, ← UInt8.toNat_inj,
    UInt32.toNat_toUInt8, UInt32.toNat_shiftRight,
    UInt32.toNat_ofNat', UInt32.reduceToNat,
    Nat.shiftRight_eq_div_pow, and_true, Nat.reduceMod,
    Nat.reducePow]
  omega

theorem le32_readLe32 (m : ByteMem) (off : Nat) :
    le32 (readLe32 m off) = m.window off 4 := by
  unfold readLe32
  rw [le32_ofNat]
  rfl

theorem be32_readBe32 (m : ByteMem) (off : Nat) :
    be32 (readBe32 m off) = m.window off 4 := by
  unfold be32 readBe32
  rw [le32_ofNat]
  rfl
