import Mathlib.Tactic

/-
  Return codes, flush values, stream formats and sizes that
  the libzHW compression and decompression code shares.

  Key definitions include:
    * `Rc` and `Rc.code`
    * `Flush`
    * `Format`
    * `ddcbRetcComplete`
-/

------------------------------------------------------------
-- Return Codes
------------------------------------------------------------

namespace Zedc

/- The codes `ZEDC_OK` to `ZEDC_ERR_ILLEGAL_APPID`. -/
inductive Rc where
  | ok
  | streamEnd
  | needDict
  | errno
  | streamError
  | dataError
  | memError
  | bufError
  | errCard
  | errInval
  | errRetlen
  | errRetobits
  | errTreeOverrun
  | errZlibHdr
  | errAdler32
  | errGzipHdr
  | errCrc32
  | errUnsupported
  | errDictOverrun
  | errInpMissing
  | errIllegalAppid
  deriving DecidableEq, Repr

/- The numbers that stand for the codes in `libzHW.h`. -/
def Rc.code : Rc → Int
  | .ok => 0
  | .streamEnd => 1
  | .needDict => 2
  | .errno => -1
  | .streamError => -2
  | .dataError => -3
  | .memError => -4
  | .bufError => -5
  | .errCard => -307
  | .errInval => -308
  | .errRetlen => -309
  | .errRetobits => -310
  | .errTreeOverrun => -311
  | .errZlibHdr => -312
  | .errAdler32 => -313
  | .errGzipHdr => -314
  | .errCrc32 => -315
  | .errUnsupported => -316
  | .errDictOverrun => -317
  | .errInpMissing => -318
  | .errIllegalAppid => -319

/- A negative code reports an error. -/
def Rc.IsNegative (rc : Rc) : Prop :=
  rc.code < 0

instance (rc : Rc) : Decidable rc.IsNegative := by
  unfold Rc.IsNegative
  infer_instance

/- The three codes that are no error. -/
theorem Rc.not_isNegative_iff (rc : Rc) :
    ¬ rc.IsNegative ↔
      rc = .ok ∨ rc = .streamEnd ∨ rc = .needDict := by
  cases rc <;> simp [Rc.IsNegative, Rc.code]

------------------------------------------------------------
-- Flush Values and Formats
------------------------------------------------------------

/- The flush values; `other` is every undefined one. -/
inductive Flush where
  | noFlush
  | partialFlush
  | syncFlush
  | fullFlush
  | finish
  | block
  | other (value : Int)
  deriving DecidableEq, Repr

/- `DEFL` is RFC 1951, `ZLIB` RFC 1950, `GZIP` RFC 1952. -/
inductive Format where
  | defl
  | zlib
  | gzip
  deriving DecidableEq, Repr

------------------------------------------------------------
-- Sizes and Device Codes
------------------------------------------------------------

/- `ZEDC_DICT_LEN`: 32 KiB and a 16 byte shift area. -/
def zedcDictLen : Nat := 0x8000 + 16

/- `ZEDC_TREE_LEN`: the header, tree and scratch area. -/
def zedcTreeLen : Nat := 0x0200

/- `ZEDC_INFL_AVAIL_IN_MAX`: 4 GiB less 1 KiB. -/
def zedcInflAvailInMax : Nat := 0xffffffff - 1023

/- `ZEDC_FORMAT_STORAGE`: the kept GZIP/ZLIB header bytes. -/
def zedcFormatStorage : Nat := 18

/- `DDCB_RETC_COMPLETE`: command complete, no error. -/
def ddcbRetcComplete : UInt16 := 0x102

/- `DDCB_RETC_FAULT`: application error, recoverable. -/
def ddcbRetcFault : UInt16 := 0x104

/- `DDCB_ERR_EXEC_DDCB`: DDCB execution failed. -/
def ddcbErrExecDdcb : Int := -411

end Zedc
