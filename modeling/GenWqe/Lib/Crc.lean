import Mathlib.Tactic

/-
  Cyclic redundancy checks: a register of `w` bits that is
  shifted to the left and reduced by a polynomial, fed with
  the bits of a message, the high bit of a byte first.

  Key definitions include:
    * `Crc.shift`
    * `Crc.register`
    * `Crc.word`
    * `Crc.Burst`

  Main results:
    * `Crc.shift_xor`
    * `Crc.register_eq`
    * `Crc.register_self`
    * `Crc.register_inj`
    * `Crc.Burst.register_ne`
    * `Crc.iterate_shift_split`
-/

------------------------------------------------------------
-- Shifts
------------------------------------------------------------

namespace Crc

section Register

variable {w : Nat} (p : BitVec w)

/- One step of the register; `p` is the polynomial. -/
def shift (x : BitVec w) : BitVec w :=
  if x.msb then (x <<< 1) ^^^ p else x <<< 1

theorem shift_zero : shift p 0#w = 0#w := by
  unfold shift
  simp

/- The register is linear. -/
theorem shift_xor (x y : BitVec w) :
    shift p (x ^^^ y) = shift p x ^^^ shift p y := by
  unfold shift
  rw [BitVec.msb_xor, BitVec.shiftLeft_xor_distrib]
  cases x.msb with
  | false =>
      cases y.msb with
      | false => simp
      | true =>
          simp only [Bool.false_xor, if_true,
            Bool.false_eq_true, if_false, BitVec.xor_assoc]
  | true =>
      cases y.msb with
      | false =>
          simp only [Bool.xor_false, if_true,
            Bool.false_eq_true, if_false, BitVec.xor_assoc]
          rw [BitVec.xor_comm (y <<< 1) p]
      | true =>
          simp only [Bool.xor_self, if_true,
            Bool.false_eq_true, if_false]
          rw [BitVec.xor_assoc, ← BitVec.xor_assoc p,
            BitVec.xor_comm p, BitVec.xor_assoc (y <<< 1),
            BitVec.xor_self, BitVec.xor_zero]

/- A polynomial with a constant term loses nothing. -/
theorem eq_zero_of_shift
    {x : BitVec w}
    (hOdd : p.getLsbD 0 = true)
    (hZero : shift p x = 0#w) : x = 0#w := by
  have hLow :
      ∀ i, (shift p x).getLsbD i = false := by
    intro i
    rw [hZero]
    exact BitVec.getLsbD_zero
  have hTop : x.msb = false := by
    cases hMsb : x.msb with
    | false => rfl
    | true =>
        have hBit := hLow 0
        unfold shift at hBit
        rw [if_pos hMsb, BitVec.getLsbD_xor, hOdd] at hBit
        simp at hBit
  apply BitVec.eq_of_getLsbD_eq
  intro i hi
  rw [BitVec.getLsbD_zero]
  have hBit := hLow (i + 1)
  unfold shift at hBit
  rw [hTop] at hBit
  simp only [Bool.false_eq_true, if_false,
    BitVec.getLsbD_shiftLeft] at hBit
  by_cases hLast : i + 1 < w
  · simpa [hLast] using hBit
  · have hEq : i = w - 1 := by omega
    rw [BitVec.msb_eq_getLsbD_last] at hTop
    rw [hEq]
    exact hTop

theorem iterate_shift_zero (n : Nat) :
    (shift p)^[n] 0#w = 0#w := by
  induction n with
  | zero => rfl
  | succ n ih => rw [Function.iterate_succ_apply, shift_zero, ih]

theorem iterate_shift_xor (n : Nat) (x y : BitVec w) :
    (shift p)^[n] (x ^^^ y) =
      (shift p)^[n] x ^^^ (shift p)^[n] y := by
  induction n generalizing x y with
  | zero => rfl
  | succ n ih =>
      rw [Function.iterate_succ_apply, shift_xor, ih]
      rfl

theorem iterate_shift_ne
    {x : BitVec w}
    (hOdd : p.getLsbD 0 = true)
    (hNe : x ≠ 0#w)
    (n : Nat) : (shift p)^[n] x ≠ 0#w := by
  induction n generalizing x with
  | zero => exact hNe
  | succ n ih =>
      rw [Function.iterate_succ_apply]
      exact ih fun hZero => hNe (eq_zero_of_shift p hOdd hZero)

/- A register whose upper bits are clear is only moved. -/
theorem iterate_shift_low
    (n : Nat)
    {x : BitVec w}
    (hClear : ∀ i, w - n ≤ i → x.getLsbD i = false) :
    (shift p)^[n] x = x <<< n := by
  induction n generalizing x with
  | zero => simp
  | succ n ih =>
      have hTop : x.msb = false := by
        rw [BitVec.msb_eq_getLsbD_last]
        exact hClear _ (by omega)
      have hShift : shift p x = x <<< 1 := by
        unfold shift
        rw [hTop]
        rfl
      rw [Function.iterate_succ_apply, hShift, ih]
      · rw [← BitVec.shiftLeft_add, Nat.add_comm]
      · intro i hi
        rw [BitVec.getLsbD_shiftLeft]
        by_cases hZero : i < 1
        · simp [hZero]
        · have hBit := hClear (i - 1) (by omega)
          simp [hBit]

------------------------------------------------------------
-- Messages
------------------------------------------------------------

/- A bit in the highest place. -/
def top (bit : Bool) : BitVec w :=
  if bit then 1#w <<< (w - 1) else 0#w

/- The register after the bits of a message. -/
def register (x : BitVec w) (bits : List Bool) :
    BitVec w :=
  bits.foldl (fun x bit => shift p (x ^^^ top bit)) x

@[simp] theorem register_nil (x : BitVec w) :
    register p x [] = x := rfl

theorem register_cons
    (x : BitVec w) (bit : Bool) (bits : List Bool) :
    register p x (bit :: bits) =
      register p (shift p (x ^^^ top bit)) bits := rfl

theorem register_append
    (x : BitVec w) (bits more : List Bool) :
    register p x (bits ++ more) =
      register p (register p x bits) more :=
  List.foldl_append

theorem top_xor (a b : Bool) :
    (top (a ^^ b) : BitVec w) = top a ^^^ top b := by
  cases a <;> cases b <;> simp [top]

/- The difference of two registers is that of the bits. -/
theorem register_xor
    {a b : List Bool}
    (hLen : a.length = b.length)
    (x y : BitVec w) :
    register p x a ^^^ register p y b =
      register p (x ^^^ y) (List.zipWith xor a b) := by
  induction a generalizing x y b with
  | nil =>
      cases b with
      | nil => rfl
      | cons bit b => simp at hLen
  | cons bit a ih =>
      cases b with
      | nil => simp at hLen
      | cons bit' b =>
          rw [List.zipWith_cons_cons, register_cons,
            register_cons, register_cons,
            ih (Nat.succ.inj hLen)]
          congr 1
          rw [← shift_xor, top_xor]
          congr 1
          ac_rfl

/- The bits of a short message as the upper bits. -/
def word : List Bool → BitVec w
  | [] => 0#w
  | bit :: bits => top bit ^^^ (word bits >>> 1)

theorem getLsbD_top (bit : Bool) (i : Nat) :
    (top bit : BitVec w).getLsbD i =
      (bit && decide (i + 1 = w)) := by
  unfold top
  cases bit with
  | false => simp
  | true =>
      by_cases hi : i < w
      · by_cases hLast : i + 1 = w
        · have hEq : i = w - 1 := by omega
          subst hEq
          simp [hi, hLast]
        · simp [hi, hLast]
          omega
      · have hLast : i + 1 ≠ w := by omega
        simp [hi, hLast]

/- The first bit of the message is the highest one. -/
theorem getLsbD_word
    (bits : List Bool) (i : Nat) (hi : i < w) :
    (word bits : BitVec w).getLsbD i =
      bits.getD (w - 1 - i) false := by
  induction bits generalizing i with
  | nil => simp [word]
  | cons bit bits ih =>
      rw [word, BitVec.getLsbD_xor, getLsbD_top,
        BitVec.getLsbD_ushiftRight]
      by_cases hLast : i + 1 = w
      · have hNone :
            (word bits : BitVec w).getLsbD (1 + i) = false :=
          BitVec.getLsbD_of_ge _ _ (by omega)
        have hZero : w - 1 - i = 0 := by omega
        rw [hNone, hZero]
        simp [hLast]
      · have hNext : w - 1 - i = (w - 1 - (1 + i)) + 1 := by
          omega
        rw [ih _ (by omega), hNext]
        simp [hLast]

theorem word_eq_zero_iff
    {bits : List Bool}
    (hLen : bits.length ≤ w) :
    (word bits : BitVec w) = 0#w ↔
      ∀ bit ∈ bits, bit = false := by
  constructor
  · intro hZero bit hMem
    rcases List.getElem_of_mem hMem with ⟨i, hi, rfl⟩
    have hBit := getLsbD_word (w := w) bits (w - 1 - i)
      (by omega)
    have hPlace : w - 1 - (w - 1 - i) = i := by omega
    rw [hZero, BitVec.getLsbD_zero, hPlace,
      List.getD_eq_getElem?_getD,
      List.getElem?_eq_getElem hi] at hBit
    exact hBit.symm
  · intro hAll
    apply BitVec.eq_of_getLsbD_eq
    intro i hi
    rw [getLsbD_word bits i hi, BitVec.getLsbD_zero,
      List.getD_eq_getElem?_getD]
    cases hGet : bits[w - 1 - i]? with
    | none => rfl
    | some bit => exact hAll bit (List.mem_of_getElem? hGet)

/-
  A message that fits the register acts as if all of it were
  added at once.
-/
theorem register_eq
    {bits : List Bool}
    (hLen : bits.length ≤ w)
    (x : BitVec w) :
    register p x bits =
      (shift p)^[bits.length] (x ^^^ word bits) := by
  induction bits generalizing x with
  | nil => simp [word]
  | cons bit bits ih =>
      have hShort : bits.length < w := hLen
      have hLow : (word bits : BitVec w).getLsbD 0 = false := by
        rw [getLsbD_word bits 0 (by omega)]
        rw [List.getD_eq_getElem?_getD,
          List.getElem?_eq_none (by omega)]
        rfl
      -- the first bit shifted out leaves the others in place
      have hBack :
          shift p (word bits >>> 1) = (word bits : BitVec w) := by
        have hTop : (word bits >>> 1 : BitVec w).msb = false := by
          rw [BitVec.msb_eq_getLsbD_last,
            BitVec.getLsbD_ushiftRight]
          exact BitVec.getLsbD_of_ge _ _ (by omega)
        unfold shift
        rw [hTop]
        apply BitVec.eq_of_getLsbD_eq
        intro i hi
        simp only [Bool.false_eq_true, if_false,
          BitVec.getLsbD_shiftLeft,
          BitVec.getLsbD_ushiftRight]
        cases i with
        | zero => simp [hLow]
        | succ i =>
            have hNext : 1 + (i + 1 - 1) = i + 1 := by omega
            rw [hNext]
            simp [hi]
      rw [register_cons, ih (Nat.le_of_lt hShort),
        List.length_cons, Function.iterate_succ_apply, word,
        ← BitVec.xor_assoc, shift_xor p _ (word bits >>> 1),
        hBack]

/- Fed with its own bits the register is zero. -/
theorem register_self
    {bits : List Bool}
    {x : BitVec w}
    (hLen : bits.length ≤ w)
    (hWord : word bits = x) : register p x bits = 0#w := by
  rw [register_eq p hLen, hWord, BitVec.xor_self,
    iterate_shift_zero]

------------------------------------------------------------
-- Bursts
------------------------------------------------------------

/-
  Two different messages of one length that agree outside of
  at most `n` consecutive bits.
-/
structure Burst (n : Nat) (a b : List Bool) : Prop where
  ne : a ≠ b
  within :
    ∃ before inA inB behind : List Bool,
      a = before ++ inA ++ behind ∧
      b = before ++ inB ++ behind ∧
      inA.length = inB.length ∧ inA.length ≤ n

theorem zipWith_xor_self (a : List Bool) :
    List.zipWith xor a a = List.replicate a.length false := by
  induction a with
  | nil => rfl
  | cons bit a ih =>
      rw [List.zipWith_cons_cons, ih, Bool.xor_self]
      rfl

theorem zipWith_xor_eq_false
    {a b : List Bool}
    (hLen : a.length = b.length)
    (hAll : ∀ bit ∈ List.zipWith xor a b, bit = false) :
    a = b := by
  induction a generalizing b with
  | nil =>
      cases b with
      | nil => rfl
      | cons bit b => simp at hLen
  | cons bit a ih =>
      cases b with
      | nil => simp at hLen
      | cons bit' b =>
          rw [List.zipWith_cons_cons] at hAll
          have hHead := hAll _ List.mem_cons_self
          have hTail :=
            ih (Nat.succ.inj hLen)
              fun bit h => hAll bit (List.mem_cons_of_mem _ h)
          have hEq : bit = bit' := by
            cases bit <;> cases bit' <;> first | rfl | cases hHead
          rw [hEq, hTail]

/- Nothing is added by bits that agree. -/
theorem register_zeros (n : Nat) (x : BitVec w) :
    register p x (List.replicate n false) =
      (shift p)^[n] x := by
  induction n generalizing x with
  | zero => rfl
  | succ n ih =>
      rw [List.replicate_succ, register_cons, ih]
      simp [top]

/- Two registers that end alike have started alike. -/
theorem register_inj
    (hOdd : p.getLsbD 0 = true)
    {x y : BitVec w}
    {bits : List Bool}
    (hSame : register p x bits = register p y bits) :
    x = y := by
  have hZip := register_xor p (a := bits) (b := bits) rfl x y
  rw [hSame, BitVec.xor_self, zipWith_xor_self,
    register_zeros] at hZip
  by_contra hNe
  apply iterate_shift_ne p hOdd _ bits.length hZip.symm
  intro hZero
  apply hNe
  exact BitVec.xor_eq_zero_iff.mp hZero

/- A burst of at most `w` bits shows in the register. -/
theorem Burst.register_ne
    {a b : List Bool}
    (hOdd : p.getLsbD 0 = true)
    (hBurst : Burst w a b)
    (x : BitVec w) :
    register p x a ≠ register p x b := by
  rcases hBurst.within with
    ⟨before, inA, inB, behind, rfl, rfl, hLen, hShort⟩
  intro hSame
  apply hBurst.ne
  have hInner : (List.zipWith xor inA inB).length = inA.length := by
    rw [List.length_zipWith, hLen, Nat.min_self]
  have hDiff :
      register p 0#w
          (List.zipWith xor inA inB ++
            List.replicate behind.length false) = 0#w := by
    have hZip :=
      register_xor p (a := inA ++ behind) (b := inB ++ behind)
        (by simp [hLen]) (register p x before)
        (register p x before)
    rw [List.append_assoc, List.append_assoc, register_append,
      register_append p x before (inB ++ behind)] at hSame
    rw [hSame, BitVec.xor_self, BitVec.xor_self,
      List.zipWith_append hLen, zipWith_xor_self] at hZip
    exact hZip.symm
  rw [register_append, register_zeros,
    register_eq p (by omega), BitVec.zero_xor] at hDiff
  have hWord :
      (word (List.zipWith xor inA inB) : BitVec w) = 0#w := by
    by_contra hNe
    exact iterate_shift_ne p hOdd
      (iterate_shift_ne p hOdd hNe _) _ hDiff
  have hEq : inA = inB :=
    zipWith_xor_eq_false hLen
      ((word_eq_zero_iff (by omega)).mp hWord)
  rw [hEq]

------------------------------------------------------------
-- Tables
------------------------------------------------------------

/-
  Several shifts at once: the upper bits go through the
  register, the lower bits are moved.
-/
theorem iterate_shift_split
    (n : Nat)
    (hLe : n ≤ w)
    (x : BitVec w) :
    (shift p)^[n] x =
      (x <<< n) ^^^
        (shift p)^[n] ((x >>> (w - n)) <<< (w - n)) := by
  have hSplit :
      x =
        (x ^^^ ((x >>> (w - n)) <<< (w - n))) ^^^
          ((x >>> (w - n)) <<< (w - n)) := by
    rw [BitVec.xor_assoc, BitVec.xor_self, BitVec.xor_zero]
  have hLow :
      ∀ i, w - n ≤ i →
        (x ^^^ ((x >>> (w - n)) <<< (w - n))).getLsbD i =
          false := by
    intro i hi
    rw [BitVec.getLsbD_xor, BitVec.getLsbD_shiftLeft,
      BitVec.getLsbD_ushiftRight]
    by_cases hw : i < w
    · have hBack : w - n + (i - (w - n)) = i := by omega
      have hNot : ¬ i < w - n := by omega
      simp [hw, hBack, hNot]
    · rw [BitVec.getLsbD_of_ge x i (by omega)]
      simp [hw]
  have hOut :
      ((x >>> (w - n)) <<< (w - n)) <<< n = 0#w := by
    rw [← BitVec.shiftLeft_add, Nat.sub_add_cancel hLe]
    exact BitVec.shiftLeft_eq_zero (Nat.le_refl w)
  calc
    (shift p)^[n] x =
        (shift p)^[n]
            (x ^^^ ((x >>> (w - n)) <<< (w - n))) ^^^
          (shift p)^[n] ((x >>> (w - n)) <<< (w - n)) := by
      rw [← iterate_shift_xor, ← hSplit]
    _ = _ := by
      rw [iterate_shift_low p n hLow,
        BitVec.shiftLeft_xor_distrib, hOut, BitVec.xor_zero]

end Register

end Crc
