import GenWqe.Lib.Crc

/-
  The usual program for a 32 bit cyclic redundancy check, the
  high bit first: a table of what eight shifts make of each
  byte, and one look into it for each byte of the message.

  Key definitions include:
    * `Crc.crcRound`, `Crc.crcEntry`, `Crc.crcFeed`
    * `Crc.byteBits`, `Crc.bytesBits`
    * `Crc.crcTab`

  Main results:
    * `Crc.toBitVec_crcFeed`
    * `Crc.toBitVec_foldl_crcFeed`
    * `Crc.crcTab_look`
-/

------------------------------------------------------------
-- Rounds
------------------------------------------------------------

namespace Crc

/- The bits of a byte, the high one first. -/
def byteBits (b : UInt8) : List Bool :=
  (List.range 8).map fun i => b.toBitVec.getLsbD (7 - i)

/- The bits of a message in the order they are fed in. -/
def bytesBits (bytes : List UInt8) : List Bool :=
  bytes.flatMap byteBits

@[simp] theorem length_byteBits (b : UInt8) :
    (byteBits b).length = 8 := by
  simp [byteBits]

@[simp] theorem bytesBits_append (bytes more : List UInt8) :
    bytesBits (bytes ++ more) =
      bytesBits bytes ++ bytesBits more :=
  List.flatMap_append

section Table

variable (p : UInt32)

/- One round on a word with the polynomial `p`. -/
def crcRound (crc : UInt32) : UInt32 :=
  if crc &&& 0x80000000 ≠ 0 then (crc <<< 1) ^^^ p
  else crc <<< 1

/- What eight rounds make of a byte in the upper place. -/
def crcEntry (i : UInt32) : UInt32 :=
  (crcRound p)^[8] (i <<< 24)

/- The index of a byte in the table. -/
def crcIndex (crc : UInt32) (b : UInt8) : UInt32 :=
  (crc >>> 24) ^^^ b.toUInt32

/- One byte of the message by the table. -/
def crcFeed (crc : UInt32) (b : UInt8) : UInt32 :=
  (crc <<< 8) ^^^ crcEntry p (crcIndex crc b &&& 0xff)

/- The mask is set exactly where the highest bit is. -/
theorem and_top_ne_zero_iff (crc : UInt32) :
    crc &&& 0x80000000 ≠ 0 ↔ crc.toBitVec.msb = true := by
  have hBits :
      (crc &&& 0x80000000).toBitVec =
        crc.toBitVec &&& 0x80000000#32 := rfl
  rw [ne_eq, ← UInt32.toBitVec_inj, hBits]
  constructor
  · intro hNe
    by_contra hMsb
    apply hNe
    apply BitVec.eq_of_getLsbD_eq
    intro i hi
    have hOne :
        (0x80000000#32).getLsbD i = decide (i = 31) := by
      interval_cases i <;> decide
    rw [BitVec.getLsbD_and, hOne]
    by_cases hLast : i = 31
    · subst hLast
      rw [BitVec.msb_eq_getLsbD_last] at hMsb
      simpa using hMsb
    · simp [hLast]
  · intro hMsb hZero
    have hBit := congrArg (fun x => x.getLsbD 31) hZero
    rw [BitVec.msb_eq_getLsbD_last] at hMsb
    simp only [BitVec.getLsbD_and] at hBit
    rw [show (32 - 1) = 31 from rfl] at hMsb
    rw [hMsb] at hBit
    revert hBit
    decide

/- A round is a shift of the register. -/
theorem toBitVec_crcRound (crc : UInt32) :
    (crcRound p crc).toBitVec =
      shift p.toBitVec crc.toBitVec := by
  have hTop := and_top_ne_zero_iff crc
  unfold crcRound shift
  by_cases hMsb : crc.toBitVec.msb = true
  · rw [if_pos (hTop.mpr hMsb), if_pos hMsb]
    rfl
  · rw [if_neg (fun h => hMsb (hTop.mp h)), if_neg hMsb]
    rfl

theorem toBitVec_iterate_crcRound
    (n : Nat) (crc : UInt32) :
    ((crcRound p)^[n] crc).toBitVec =
      (shift p.toBitVec)^[n] crc.toBitVec := by
  induction n generalizing crc with
  | zero => rfl
  | succ n ih =>
      rw [Function.iterate_succ_apply, ih,
        toBitVec_crcRound]
      rfl

------------------------------------------------------------
-- Bytes
------------------------------------------------------------

/- The eight bits of a byte as the upper ones. -/
theorem word_byteBits (b : UInt8) :
    (word (byteBits b) : BitVec 32) =
      (b.toBitVec.setWidth 32) <<< 24 := by
  apply BitVec.eq_of_getLsbD_eq
  intro i hi
  rw [getLsbD_word _ i hi, BitVec.getLsbD_shiftLeft,
    BitVec.getLsbD_setWidth]
  unfold byteBits
  by_cases hLow : i < 24
  · rw [List.getD_eq_getElem?_getD,
      List.getElem?_eq_none (by simp; omega)]
    simp [hLow]
  · have hPlace : 32 - 1 - i < 8 := by omega
    have hBack : 7 - (32 - 1 - i) = i - 24 := by omega
    rw [List.getD_eq_getElem?_getD, List.getElem?_map,
      List.getElem?_range hPlace]
    simp only [Option.map_some, Option.getD_some, hBack]
    simp [hi, hLow]
    omega

/- The masked index moved to the upper place. -/
theorem toBitVec_index (crc : UInt32) (b : UInt8) :
    ((crcIndex crc b &&& 0xff) <<< 24).toBitVec =
      ((crc.toBitVec ^^^
        (b.toBitVec.setWidth 32 <<< 24)) >>> 24) <<< 24 := by
  have hBits :
      ((crcIndex crc b &&& 0xff) <<< 24).toBitVec =
        (((crc.toBitVec >>> 24) ^^^
          b.toBitVec.setWidth 32) &&& 255#32) <<< 24 := rfl
  rw [hBits]
  apply BitVec.eq_of_getLsbD_eq
  intro i hi
  have hOnes :
      ∀ j, j < 8 → (255#32).getLsbD j = true := by decide
  simp only [BitVec.getLsbD_shiftLeft, BitVec.getLsbD_and,
    BitVec.getLsbD_xor, BitVec.getLsbD_ushiftRight,
    BitVec.getLsbD_setWidth]
  by_cases hLow : i < 24
  · simp [hLow]
  · have hPlace : i - 24 < 8 := by omega
    have hSame : 24 + (i - 24) = i := by omega
    have hBack : 24 + (i - 24) - 24 = i - 24 := by omega
    have hWidth : i - 24 < 32 := by omega
    rw [hOnes _ hPlace, hSame]
    simp [hi, hLow, hWidth]

/- A byte by the table is a byte through the register. -/
theorem toBitVec_crcFeed (crc : UInt32) (b : UInt8) :
    (crcFeed p crc b).toBitVec =
      register p.toBitVec crc.toBitVec (byteBits b) := by
  rw [register_eq _ (by simp), length_byteBits,
    word_byteBits, iterate_shift_split _ 8 (by decide)]
  have hMoved :
      (crc.toBitVec ^^^ b.toBitVec.setWidth 32 <<< 24) <<< 8 =
        crc.toBitVec <<< 8 := by
    rw [BitVec.shiftLeft_xor_distrib, ← BitVec.shiftLeft_add,
      BitVec.shiftLeft_eq_zero (by decide : 32 ≤ 24 + 8),
      BitVec.xor_zero]
  have hByte :
      (crcFeed p crc b).toBitVec =
        crc.toBitVec <<< 8 ^^^
          ((crcRound p)^[8]
            ((crcIndex crc b &&& 0xff) <<< 24)).toBitVec := rfl
  rw [hByte, toBitVec_iterate_crcRound, toBitVec_index,
    hMoved]

/- So the table gives what the register holds at the end. -/
theorem toBitVec_foldl_crcFeed
    (bytes : List UInt8) (init : UInt32) :
    (bytes.foldl (crcFeed p) init).toBitVec =
      register p.toBitVec init.toBitVec (bytesBits bytes) := by
  induction bytes generalizing init with
  | nil => rfl
  | cons b bytes ih =>
      have hBits :
          bytesBits (b :: bytes) =
            byteBits b ++ bytesBits bytes := rfl
      rw [List.foldl_cons, ih, toBitVec_crcFeed, hBits,
        register_append]

------------------------------------------------------------
-- Tables
------------------------------------------------------------

/- The 256 entries, in order. -/
def crcTab : List UInt32 :=
  (List.range 256).map fun i => crcEntry p (UInt32.ofNat i)

/- A word below 256 is found in the table. -/
theorem crcTab_look
    {i : UInt32}
    (hi : i.toNat < 256) :
    (crcTab p).getD i.toNat 0 = crcEntry p i := by
  unfold crcTab
  rw [List.getD_eq_getElem?_getD, List.getElem?_map,
    List.getElem?_range hi]
  simp

/- The index of a byte is below 256 without a mask. -/
theorem toNat_crcIndex_lt (crc : UInt32) (b : UInt8) :
    (crcIndex crc b).toNat < 256 := by
  have hHigh : (crc >>> 24).toNat < 2 ^ 8 := by
    have hLt := crc.toNat_lt
    rw [UInt32.toNat_shiftRight,
      show UInt32.toNat 24 % 32 = 24 from rfl,
      Nat.shiftRight_eq_div_pow]
    omega
  have hLow : b.toUInt32.toNat < 2 ^ 8 := by
    rw [UInt8.toNat_toUInt32]
    exact b.toNat_lt
  unfold crcIndex
  rw [UInt32.toNat_xor]
  exact Nat.xor_lt_two_pow hHigh hLow

/- So the mask changes nothing. -/
theorem crcIndex_mask (crc : UInt32) (b : UInt8) :
    crcIndex crc b &&& 0xff = crcIndex crc b := by
  have hLt := toNat_crcIndex_lt crc b
  apply UInt32.toNat_inj.mp
  rw [UInt32.toNat_and]
  have hMod :=
    Nat.and_two_pow_sub_one_eq_mod (crcIndex crc b).toNat 8
  rw [show (0xff : UInt32).toNat = 2 ^ 8 - 1 from rfl, hMod]
  exact Nat.mod_eq_of_lt hLt

/- A byte by a look into the table. -/
theorem crcFeed_of_look (crc : UInt32) (b : UInt8) :
    (crc <<< 8) ^^^
        (crcTab p).getD (crcIndex crc b).toNat 0 =
      crcFeed p crc b := by
  rw [crcTab_look p (toNat_crcIndex_lt crc b)]
  unfold crcFeed
  rw [crcIndex_mask]

end Table

end Crc
