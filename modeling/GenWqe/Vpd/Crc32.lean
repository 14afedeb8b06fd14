import GenWqe.Lib.ByteMem
import GenWqe.Lib.CrcTable

/-
  The checksum of the VPD images: the table of
  `genwqe_vpd_common.c`, and the checksum it gives, as that of
  the register with the polynomial 0x04c11db7.

  Key definitions include:
    * `genwqeCrc32Lut`, `genwqeCrc32Gen`
    * `msbFirst`, `imageBits`

  Main results:
    * `genwqeCrc32Gen_eq`
    * `genwqeCrc32Gen_self`
    * `genwqeCrc32Gen_burst`
-/

------------------------------------------------------------
-- The Table
------------------------------------------------------------

namespace Vpd

/- `CRC32_POLYNOMIAL` -/
def crc32Polynomial : UInt32 := 0x04c11db7

/- `CRC32_INIT_SEED` -/
def crc32InitSeed : UInt32 := 0xffffffff

/- One round of the inner loop. -/
def crcShift (crc : UInt32) : UInt32 :=
  if crc &&& 0x80000000 ≠ 0 then
    (crc <<< 1) ^^^ crc32Polynomial
  else crc <<< 1

/-
  What `genwqe_crc32_setup_lut` puts into
  `genwqe_crc32_lut[i]`, by eight rounds.
-/
def genwqeCrc32Lut (i : UInt32) : UInt32 :=
  crcShift^[8] (i <<< 24)

/- One round of `genwqe_crc32_gen` -/
def crcByte (crc : UInt32) (b : UInt8) : UInt32 :=
  let i := ((crc >>> 24) ^^^ b.toUInt32) &&& 0xff
  (crc <<< 8) ^^^ genwqeCrc32Lut i

/- `genwqe_crc32_gen` -/
def genwqeCrc32Gen
    (buff : List UInt8) (init : UInt32) : UInt32 :=
  buff.foldl crcByte init

theorem genwqeCrc32Gen_append
    (buff more : List UInt8) (init : UInt32) :
    genwqeCrc32Gen (buff ++ more) init =
      genwqeCrc32Gen more (genwqeCrc32Gen buff init) :=
  List.foldl_append

------------------------------------------------------------
-- The Register
------------------------------------------------------------

open Crc

/- The bits of a byte, the high one first. -/
def msbFirst (b : UInt8) : List Bool :=
  (List.range 8).map fun i => b.toBitVec.getLsbD (7 - i)

/- The bits of an image in the order they are fed in. -/
def imageBits (image : List UInt8) : List Bool :=
  image.flatMap msbFirst

@[simp] theorem length_msbFirst (b : UInt8) :
    (msbFirst b).length = 8 := by
  simp [msbFirst]

@[simp] theorem length_imageBits (image : List UInt8) :
    (imageBits image).length = 8 * image.length := by
  induction image with
  | nil => rfl
  | cons b image ih =>
      unfold imageBits at *
      rw [List.flatMap_cons, List.length_append, ih,
        length_msbFirst, List.length_cons]
      omega

/- The polynomial as the register takes it. -/
def poly : BitVec 32 := crc32Polynomial.toBitVec

theorem poly_odd : poly.getLsbD 0 = true := by
  decide

/- A byte by the table is a byte through the register. -/
theorem toBitVec_crcByte (crc : UInt32) (b : UInt8) :
    (crcByte crc b).toBitVec =
      register poly crc.toBitVec (msbFirst b) :=
  toBitVec_crcFeed crc32Polynomial crc b

/- The checksum is what the register holds at the end. -/
theorem genwqeCrc32Gen_eq
    (buff : List UInt8) (init : UInt32) :
    (genwqeCrc32Gen buff init).toBitVec =
      register poly init.toBitVec (imageBits buff) := by
  induction buff generalizing init with
  | nil => rfl
  | cons b buff ih =>
      have hCons :
          genwqeCrc32Gen (b :: buff) init =
            genwqeCrc32Gen buff (crcByte init b) := rfl
      have hBits :
          imageBits (b :: buff) =
            msbFirst b ++ imageBits buff := rfl
      rw [hCons, ih, toBitVec_crcByte, hBits,
        register_append]

------------------------------------------------------------
-- The Residue
------------------------------------------------------------

/- Behind its own bytes, high byte first, it is zero. -/
theorem genwqeCrc32Gen_self (crc : UInt32) :
    genwqeCrc32Gen (be32 crc) crc = 0 := by
  apply UInt32.toBitVec_inj.mp
  rw [genwqeCrc32Gen_eq]
  apply register_self poly (by simp)
  apply BitVec.eq_of_getLsbD_eq
  intro i hi
  rw [getLsbD_word _ i hi]
  interval_cases i <;>
    simp [imageBits, be32, le32, msbFirst, List.range_succ]

/- One burst of at most 32 bits changes it. -/
theorem genwqeCrc32Gen_burst
    {image other : List UInt8}
    (hBurst :
      Burst 32 (imageBits image) (imageBits other))
    (init : UInt32) :
    genwqeCrc32Gen image init ≠ genwqeCrc32Gen other init := by
  intro hSame
  apply hBurst.register_ne poly poly_odd init.toBitVec
  rw [← genwqeCrc32Gen_eq, ← genwqeCrc32Gen_eq, hSame]

end Vpd
