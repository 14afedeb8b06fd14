import GenWqe.Lib.CrcTable

/-
  The checksum that libcard puts into a DDCB: the table of
  its library data, and the checksum it gives, as that of the
  register with the polynomial 0x20044009.

  Key definitions include:
    * `ddcbSetupCrc32`, `genwqeDdcbCrc32`

  Main results:
    * `genwqeDdcbCrc32_eq`
    * `genwqeDdcbCrc32_append`
-/

------------------------------------------------------------
-- The Table
------------------------------------------------------------

namespace Libcard

open Crc

/- `CRC32_POLYNOMIAL` of `libcard.c` -/
def crc32Polynomial : UInt32 := 0x20044009

/- One round of the inner loop. -/
def ddcbCrcShift (crc : UInt32) : UInt32 :=
  if crc &&& 0x80000000 ≠ 0 then
    (crc <<< 1) ^^^ crc32Polynomial
  else crc <<< 1

/- What `ddcb_setup_crc32` leaves in `crc32_tab`. -/
def ddcbSetupCrc32 : List UInt32 :=
  (List.range 256).map fun i =>
    ddcbCrcShift^[8] (UInt32.ofNat i <<< 24)

/- One round of `genwqe_ddcb_crc32` -/
def ddcbCrcByte (crc32Tab : List UInt32)
    (crc : UInt32) (b : UInt8) : UInt32 :=
  let i := ((crc >>> 24) ^^^ b.toUInt32) &&& 0xff
  (crc <<< 8) ^^^ crc32Tab.getD i.toNat 0

/- `genwqe_ddcb_crc32` -/
def genwqeDdcbCrc32 (crc32Tab : List UInt32)
    (buff : List UInt8) (init : UInt32) : UInt32 :=
  buff.foldl (ddcbCrcByte crc32Tab) init

------------------------------------------------------------
-- The Register
------------------------------------------------------------

/- A byte by the table that was set up. -/
theorem ddcbCrcByte_eq (crc : UInt32) (b : UInt8) :
    ddcbCrcByte ddcbSetupCrc32 crc b =
      crcFeed crc32Polynomial crc b := by
  have hTab : ddcbSetupCrc32 = crcTab crc32Polynomial := rfl
  have hMask := crcIndex_mask crc b
  unfold crcIndex at hMask
  unfold ddcbCrcByte
  rw [hMask, hTab]
  exact crcFeed_of_look crc32Polynomial crc b

/- The checksum is what the register holds at the end. -/
theorem genwqeDdcbCrc32_eq
    (buff : List UInt8) (init : UInt32) :
    (genwqeDdcbCrc32 ddcbSetupCrc32 buff init).toBitVec =
      register crc32Polynomial.toBitVec init.toBitVec
        (bytesBits buff) := by
  have hFeed :
      ddcbCrcByte ddcbSetupCrc32 = crcFeed crc32Polynomial := by
    funext crc b
    exact ddcbCrcByte_eq crc b
  unfold genwqeDdcbCrc32
  rw [hFeed]
  exact toBitVec_foldl_crcFeed crc32Polynomial buff init

/- The checksum of one buffer starts that of the next. -/
theorem genwqeDdcbCrc32_append
    (crc32Tab : List UInt32)
    (buff more : List UInt8)
    (init : UInt32) :
    genwqeDdcbCrc32 crc32Tab (buff ++ more) init =
      genwqeDdcbCrc32 crc32Tab more
        (genwqeDdcbCrc32 crc32Tab buff init) :=
  List.foldl_append

/- The value that the comment of the function names. -/
example :
    genwqeDdcbCrc32 ddcbSetupCrc32 [1, 2, 3, 4] 0xffffffff =
      0xf33cb7d3 := by
  decide +kernel

end Libcard
