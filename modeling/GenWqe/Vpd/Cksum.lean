import Mathlib.Data.Nat.Digits.Defs
import GenWqe.Card.DdcbCrc
import GenWqe.Vpd.Crc32

/-
  The checksum of `genwqe_csv2vpd.c`, with its table of typed
  constants, against that of the POSIX utility, and what the
  three table-driven checksums of the repository compute.

  Key definitions include:
    * `crc32Lut`, `memcrc`
    * `lengthBytes`, `posixCksum`
    * `BitSerial`

  Main results:
    * `crc32Lut_eq`
    * `memcrc_eq_iff`
    * `checksums_bitSerial_iff`
-/

------------------------------------------------------------
-- The Table
------------------------------------------------------------

namespace Vpd

open Crc

/- `crc32_lut` of `genwqe_csv2vpd.c` -/
def crc32Lut : List UInt32 :=
  [ 0x0, 0x04c11db7, 0x09823b6e, 0x0d4326d9, 0x130476dc,
    0x17c56b6b, 0x1a864db2, 0x1e475005, 0x2608edb8, 0x22c9f00f,
    0x2f8ad6d6, 0x2b4bcb61, 0x350c9b64, 0x31cd86d3, 0x3c8ea00a,
    0x384fbdbd, 0x4c11db70, 0x48d0c6c7, 0x4593e01e, 0x4152fda9,
    0x5f15adac, 0x5bd4b01b, 0x569796c2, 0x52568b75, 0x6a1936c8,
    0x6ed82b7f, 0x639b0da6, 0x675a1011, 0x791d4014, 0x7ddc5da3,
    0x709f7b7a, 0x745e66cd, 0x9823b6e0, 0x9ce2ab57, 0x91a18d8e,
    0x95609039, 0x8b27c03c, 0x8fe6dd8b, 0x82a5fb52, 0x8664e6e5,
    0xbe2b5b58, 0xbaea46ef, 0xb7a96036, 0xb3687d81, 0xad2f2d84,
    0xa9ee3033, 0xa4ad16ea, 0xa06c0b5d, 0xd4326d90, 0xd0f37027,
    0xddb056fe, 0xd9714b49, 0xc7361b4c, 0xc3f706fb, 0xceb42022,
    0xca753d95, 0xf23a8028, 0xf6fb9d9f, 0xfbb8bb46, 0xff79a6f1,
    0xe13ef6f4, 0xe5ffeb43, 0xe8bccd9a, 0xec7dd02d, 0x34867077,
    0x30476dc0, 0x3d044b19, 0x39c556ae, 0x278206ab, 0x23431b1c,
    0x2e003dc5, 0x2ac12072, 0x128e9dcf, 0x164f8078, 0x1b0ca6a1,
    0x1fcdbb16, 0x018aeb13, 0x054bf6a4, 0x0808d07d, 0x0cc9cdca,
    0x7897ab07, 0x7c56b6b0, 0x71159069, 0x75d48dde, 0x6b93dddb,
    0x6f52c06c, 0x6211e6b5, 0x66d0fb02, 0x5e9f46bf, 0x5a5e5b08,
    0x571d7dd1, 0x53dc6066, 0x4d9b3063, 0x495a2dd4, 0x44190b0d,
    0x40d816ba, 0xaca5c697, 0xa864db20, 0xa527fdf9, 0xa1e6e04e,
    0xbfa1b04b, 0xbb60adfc, 0xb6238b25, 0xb2e29692, 0x8aad2b2f,
    0x8e6c3698, 0x832f1041, 0x87ee0df6, 0x99a95df3, 0x9d684044,
    0x902b669d, 0x94ea7b2a, 0xe0b41de7, 0xe4750050, 0xe9362689,
    0xedf73b3e, 0xf3b06b3b, 0xf771768c, 0xfa325055, 0xfef34de2,
    0xc6bcf05f, 0xc27dede8, 0xcf3ecb31, 0xcbffd686, 0xd5b88683,
    0xd1799b34, 0xdc3abded, 0xd8fba05a, 0x690ce0ee, 0x6dcdfd59,
    0x608edb80, 0x644fc637, 0x7a089632, 0x7ec98b85, 0x738aad5c,
    0x774bb0eb, 0x4f040d56, 0x4bc510e1, 0x46863638, 0x42472b8f,
    0x5c007b8a, 0x58c1663d, 0x558240e4, 0x51435d53, 0x251d3b9e,
    0x21dc2629, 0x2c9f00f0, 0x285e1d47, 0x36194d42, 0x32d850f5,
    0x3f9b762c, 0x3b5a6b9b, 0x0315d626, 0x07d4cb91, 0x0a97ed48,
    0x0e56f0ff, 0x1011a0fa, 0x14d0bd4d, 0x19939b94, 0x1d528623,
    0xf12f560e, 0xf5ee4bb9, 0xf8ad6d60, 0xfc6c70d7, 0xe22b20d2,
    0xe6ea3d65, 0xeba91bbc, 0xef68060b, 0xd727bbb6, 0xd3e6a601,
    0xdea580d8, 0xda649d6f, 0xc423cd6a, 0xc0e2d0dd, 0xcda1f604,
    0xc960ebb3, 0xbd3e8d7e, 0xb9ff90c9, 0xb4bcb610, 0xb07daba7,
    0xae3afba2, 0xaafbe615, 0xa7b8c0cc, 0xa379dd7b, 0x9b3660c6,
    0x9ff77d71, 0x92b45ba8, 0x9675461f, 0x8832161a, 0x8cf30bad,
    0x81b02d74, 0x857130c3, 0x5d8a9099, 0x594b8d2e, 0x5408abf7,
    0x50c9b640, 0x4e8ee645, 0x4a4ffbf2, 0x470cdd2b, 0x43cdc09c,
    0x7b827d21, 0x7f436096, 0x7200464f, 0x76c15bf8, 0x68860bfd,
    0x6c47164a, 0x61043093, 0x65c52d24, 0x119b4be9, 0x155a565e,
    0x18197087, 0x1cd86d30, 0x029f3d35, 0x065e2082, 0xb1d065b,
    0x0fdc1bec, 0x3793a651, 0x3352bbe6, 0x3e119d3f, 0x3ad08088,
    0x2497d08d, 0x2056cd3a, 0x2d15ebe3, 0x29d4f654, 0xc5a92679,
    0xc1683bce, 0xcc2b1d17, 0xc8ea00a0, 0xd6ad50a5, 0xd26c4d12,
    0xdf2f6bcb, 0xdbee767c, 0xe3a1cbc1, 0xe760d676, 0xea23f0af,
    0xeee2ed18, 0xf0a5bd1d, 0xf464a0aa, 0xf9278673, 0xfde69bc4,
    0x89b8fd09, 0x8d79e0be, 0x803ac667, 0x84fbdbd0, 0x9abc8bd5,
    0x9e7d9662, 0x933eb0bb, 0x97ffad0c, 0xafb010b1, 0xab710d06,
    0xa6322bdf, 0xa2f33668, 0xbcb4666d, 0xb8757bda, 0xb5365d03,
    0xb1f740b4 ]

/- The constants are those of the set-up loop. -/
theorem crc32Lut_eq : crc32Lut = crcTab crc32Polynomial := by
  decide +kernel

------------------------------------------------------------
-- The Checksum of a Buffer
------------------------------------------------------------

/- One round of either loop of `memcrc` -/
def memcrcByte (s : UInt32) (c : UInt8) : UInt32 :=
  (s <<< 8) ^^^
    crc32Lut.getD ((s >>> 24) ^^^ c.toUInt32).toNat 0

/- The second loop of `memcrc`, over the length. -/
def memcrcLength (s : UInt32) (n : Nat) : UInt32 :=
  if n = 0 then s
  else
    memcrcLength (memcrcByte s (UInt8.ofNat (n &&& 0xff)))
      (n >>> 8)
termination_by n
decreasing_by
  rw [Nat.shiftRight_eq_div_pow]
  omega

/-
  `memcrc`; the counter `i` of the first loop is an unsigned
  int while `n` is a size_t.
-/
def memcrc (b : List UInt8) : UInt32 :=
  let n := b.length
  let i := n % 2 ^ 32
  ~~~ memcrcLength ((b.take i).foldl memcrcByte 0) n

/- The bytes of a length, the low one first. -/
def lengthBytes (n : Nat) : List UInt8 :=
  (Nat.digits 256 n).map UInt8.ofNat

/-
  The checksum of the POSIX utility: the bits of the bytes
  and of their number go through the register, which is then
  complemented.
-/
def posixCksum (b : List UInt8) : BitVec 32 :=
  ~~~ register poly 0#32
    (imageBits (b ++ lengthBytes b.length))

/- A byte by the typed table. -/
theorem memcrcByte_eq (s : UInt32) (c : UInt8) :
    memcrcByte s c = crcFeed crc32Polynomial s c := by
  unfold memcrcByte
  rw [crc32Lut_eq]
  exact crcFeed_of_look crc32Polynomial s c

theorem toBitVec_foldl_memcrcByte
    (b : List UInt8) (s : UInt32) :
    (b.foldl memcrcByte s).toBitVec =
      register poly s.toBitVec (imageBits b) := by
  have hFeed : memcrcByte = crcFeed crc32Polynomial := by
    funext s c
    exact memcrcByte_eq s c
  rw [hFeed]
  exact toBitVec_foldl_crcFeed crc32Polynomial b s

/- The second loop takes the bytes of the length. -/
theorem memcrcLength_eq (n : Nat) (s : UInt32) :
    memcrcLength s n =
      (lengthBytes n).foldl memcrcByte s := by
  induction n using Nat.strong_induction_on
    generalizing s with
  | _ n ih =>
      rw [memcrcLength]
      by_cases hZero : n = 0
      · rw [if_pos hZero, hZero]
        rfl
      · have hShift : n >>> 8 = n / 256 :=
          Nat.shiftRight_eq_div_pow n 8
        have hMask : n &&& 0xff = n % 256 :=
          Nat.and_two_pow_sub_one_eq_mod n 8
        have hBytes :
            lengthBytes n =
              UInt8.ofNat (n % 256) ::
                lengthBytes (n / 256) := by
          unfold lengthBytes
          rw [Nat.digits_def' (by decide) (by omega)]
          rfl
        rw [if_neg hZero, hShift, hMask, hBytes,
          ih (n / 256) (by omega)]
        rfl

theorem imageBits_append (image more : List UInt8) :
    imageBits (image ++ more) =
      imageBits image ++ imageBits more :=
  List.flatMap_append

/- What is behind the bytes that the first loop counts. -/
def uncounted (b : List UInt8) : List UInt8 :=
  b.drop (b.length % 2 ^ 32)

/- The register as the first loop leaves it. -/
def counted (b : List UInt8) : BitVec 32 :=
  register poly 0#32 (imageBits (b.take (b.length % 2 ^ 32)))

/-
  `memcrc` is the checksum of the POSIX utility exactly where
  the bytes that it does not count leave the register alone.
-/
theorem memcrc_eq_iff (b : List UInt8) :
    (memcrc b).toBitVec = posixCksum b ↔
      register poly (counted b) (imageBits (uncounted b)) =
        counted b := by
  have hCode :
      (memcrc b).toBitVec =
        ~~~ register poly (counted b)
          (imageBits (lengthBytes b.length)) := by
    have hNot :
        (memcrc b).toBitVec =
          ~~~ (memcrcLength
            ((b.take (b.length % 2 ^ 32)).foldl memcrcByte 0)
              b.length).toBitVec := rfl
    rw [hNot, memcrcLength_eq, toBitVec_foldl_memcrcByte,
      toBitVec_foldl_memcrcByte]
    rfl
  have hSpec :
      posixCksum b =
        ~~~ register poly
          (register poly (counted b)
            (imageBits (uncounted b)))
          (imageBits (lengthBytes b.length)) := by
    unfold posixCksum counted uncounted
    rw [← register_append, ← register_append,
      ← imageBits_append, ← imageBits_append,
      ← List.append_assoc, List.take_append_drop]
  rw [hCode, hSpec]
  constructor
  · intro hSame
    have hInner := BitVec.not_inj.mp hSame
    exact (register_inj poly poly_odd hInner).symm
  · intro hSame
    rw [hSame]

/- A buffer below 4 GiB is counted to its end. -/
theorem uncounted_of_short
    {b : List UInt8}
    (hShort : b.length < 2 ^ 32) :
    uncounted b = [] := by
  unfold uncounted
  rw [Nat.mod_eq_of_lt hShort, List.drop_length]

------------------------------------------------------------
-- The Three Checksums
------------------------------------------------------------

/-
  The two checksums with tables set up by a loop are those of
  the register, for every start value and in every two parts,
  and `memcrc` is the checksum of the POSIX utility.
-/
structure BitSerial
    (buff more : List UInt8)
    (init : UInt32)
    (b : List UInt8) : Prop where
  ddcb :
    (Libcard.genwqeDdcbCrc32 Libcard.ddcbSetupCrc32
        buff init).toBitVec =
      register Libcard.crc32Polynomial.toBitVec
        init.toBitVec (imageBits buff)
  ddcb_append :
    Libcard.genwqeDdcbCrc32 Libcard.ddcbSetupCrc32
        (buff ++ more) init =
      Libcard.genwqeDdcbCrc32 Libcard.ddcbSetupCrc32 more
        (Libcard.genwqeDdcbCrc32 Libcard.ddcbSetupCrc32
          buff init)
  gen :
    (genwqeCrc32Gen buff init).toBitVec =
      register crc32Polynomial.toBitVec
        init.toBitVec (imageBits buff)
  gen_append :
    genwqeCrc32Gen (buff ++ more) init =
      genwqeCrc32Gen more (genwqeCrc32Gen buff init)
  posix : (memcrc b).toBitVec = posixCksum b

theorem bitSerial_of_posix
    {b : List UInt8}
    (hPosix : (memcrc b).toBitVec = posixCksum b)
    (buff more : List UInt8)
    (init : UInt32) :
    BitSerial buff more init b where
  ddcb := Libcard.genwqeDdcbCrc32_eq buff init
  ddcb_append := Libcard.genwqeDdcbCrc32_append _ buff more init
  gen := genwqeCrc32Gen_eq buff init
  gen_append := genwqeCrc32Gen_append buff more init
  posix := hPosix

/-
  All of it holds exactly where the buffer of `memcrc` is
  below 4 GiB, or what lies behind the part that it counts
  leaves the register alone.
-/
theorem checksums_bitSerial_iff
    (buff more : List UInt8)
    (init : UInt32)
    (b : List UInt8) :
    BitSerial buff more init b ↔
      b.length < 2 ^ 32 ∨
        register poly (counted b) (imageBits (uncounted b)) =
          counted b := by
  constructor
  · intro hSerial
    exact Or.inr ((memcrc_eq_iff b).mp hSerial.posix)
  · intro hCond
    apply bitSerial_of_posix
    apply (memcrc_eq_iff b).mpr
    rcases hCond with hShort | hAlone
    · rw [uncounted_of_short hShort]
      rfl
    · exact hAlone

theorem imageBits_zeros (n : Nat) :
    imageBits (List.replicate n 0) =
      List.replicate (8 * n) false := by
  induction n with
  | zero => rfl
  | succ n ih =>
      have hHead :
          imageBits (0 :: List.replicate n 0) =
            List.replicate 8 false ++
              imageBits (List.replicate n 0) := rfl
      rw [List.replicate_succ, hHead, ih,
        List.replicate_append_replicate, Nat.mul_succ,
        Nat.add_comm]

/-
  A one and zeros behind it, so many that the counter of the
  first loop starts at zero.
-/
theorem memcrc_ne_of_wrapped
    {n : Nat}
    (hWrap : (n + 1) % 2 ^ 32 = 0) :
    (memcrc (1 :: List.replicate n 0)).toBitVec ≠
      posixCksum (1 :: List.replicate n 0) := by
  intro hPosix
  have hSame := (memcrc_eq_iff _).mp hPosix
  unfold counted uncounted at hSame
  rw [List.length_cons, List.length_replicate, hWrap,
    List.take_zero, List.drop_zero] at hSame
  have hBits :
      imageBits (1 :: List.replicate n 0) =
        msbFirst 1 ++ imageBits (List.replicate n 0) := rfl
  have hNothing :
      register poly 0#32 (imageBits []) = 0#32 := rfl
  rw [hNothing, hBits, imageBits_zeros, register_append,
    register_zeros] at hSame
  have hOne : register poly 0#32 (msbFirst 1) ≠ 0#32 := by
    decide
  exact iterate_shift_ne poly poly_odd hOne _ hSame

/- Of 4 GiB the first loop counts nothing. -/
theorem checksums_not_bitSerial :
    ¬ ∀ (buff more : List UInt8) (init : UInt32)
        (b : List UInt8), BitSerial buff more init b := by
  intro hAll
  have hWrap : (4294967295 + 1) % 2 ^ 32 = 0 := by decide
  apply memcrc_ne_of_wrapped hWrap
  exact (hAll [] [] 0 _).posix

end Vpd
