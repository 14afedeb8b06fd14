import GenWqe.Wrapper.Deflate

/-
  `deflateBound` of the wrapper, which keeps the bound that
  the implementation in use computes in a variable of type
  `int` before it returns it.

  Key definitions include:
    * `throughInt`
    * `BoundWorld`, `hDeflateBound`
    * `subBound`, `deflateBound`, `compressBound`
    * `Bounds`, `BoundFits`

  Main results:
    * `throughInt_eq_iff`
    * `hDeflateBound_mono`
    * `deflateBound_bounds_iff`
-/

------------------------------------------------------------
-- Through a Signed Variable
------------------------------------------------------------

namespace Wrapper

open Zedc Hardware Session

/- A `uLong` that is put into an `int`, and returned. -/
def throughInt (v : UInt64) : UInt64 :=
  v.toUInt32.toInt32.toInt64.toUInt64

theorem toNat_throughInt (v : UInt64) :
    (throughInt v).toNat =
      if v.toNat % 2 ^ 32 < 2 ^ 31 then v.toNat % 2 ^ 32
      else 2 ^ 64 - 2 ^ 32 + v.toNat % 2 ^ 32 := by
  have hBits :
      (throughInt v).toBitVec =
        (v.toBitVec.setWidth 32).signExtend 64 := rfl
  have hLow :
      (v.toBitVec.setWidth 32).toNat = v.toNat % 2 ^ 32 :=
    BitVec.toNat_setWidth 32 v.toBitVec
  have hNat :
      (throughInt v).toNat =
        ((v.toBitVec.setWidth 32).signExtend 64).toNat :=
    congrArg BitVec.toNat hBits
  rw [hNat, BitVec.toNat_signExtend, BitVec.msb_eq_decide,
    BitVec.toNat_setWidth, hLow]
  have hLt : v.toNat % 2 ^ 32 < 2 ^ 32 :=
    Nat.mod_lt _ (by decide)
  by_cases hNeg : v.toNat % 2 ^ 32 < 2 ^ 31
  · have hTop :
        decide (2 ^ (32 - 1) ≤ v.toNat % 2 ^ 32) = false := by
      simpa using hNeg
    rw [hTop, if_pos hNeg]
    simp only [Bool.false_eq_true, if_false]
    omega
  · have hTop :
        decide (2 ^ (32 - 1) ≤ v.toNat % 2 ^ 32) = true := by
      simpa using hNeg
    rw [hTop, if_neg hNeg]
    simp only [if_true]
    omega

/- Only the values next to zero come through. -/
theorem throughInt_eq_iff (v : UInt64) :
    throughInt v = v ↔
      v.toNat < 2 ^ 31 ∨ 2 ^ 64 - 2 ^ 31 ≤ v.toNat := by
  have hLt : v.toNat < 2 ^ 64 := v.toNat_lt
  rw [← UInt64.toNat_inj, toNat_throughInt]
  split <;> omega

------------------------------------------------------------
-- The Bounds
------------------------------------------------------------

/-
  The page size that `sysconf` tells, and `z_deflateBound` on
  a stream with or without a state, or on no stream.
-/
structure BoundWorld (σ : Type) where
  pageSize : UInt32
  zDeflateBound : Option (ZStream × Option σ) → UInt64 → UInt64

/- `h_deflateBound` -/
def hDeflateBound
    (pageSize : UInt32) (sourceLen : UInt64) : UInt64 :=
  sourceLen * 15 / 8 + pageSize.toUInt64

section Calls

variable {σ : Type}

/-
  The bound function that `w->impl` selects, on the state
  behind the wrapper; none stands for one that is not there.
-/
def subBound
    (world : BoundWorld σ)
    (sourceLen : UInt64)
    (x : DeflateWrap σ) : Option UInt64 :=
  match x.w.impl, x.w.privData with
  | .hw, _ => some (hDeflateBound world.pageSize sourceLen)
  | .sw, .live (.sw s) =>
      some
        (world.zDeflateBound (some (x.strm, some s)) sourceLen)
  | .sw, .null =>
      some
        (world.zDeflateBound (some (x.strm, none)) sourceLen)
  | .sw, _ => none

/- Both bound functions without a stream. -/
def compressBound
    (world : BoundWorld σ) (sourceLen : UInt64) : UInt64 :=
  max (hDeflateBound world.pageSize sourceLen)
    (world.zDeflateBound none sourceLen)

/- `deflateBound`; without a state `Z_STREAM_ERROR`. -/
def deflateBound
    (world : BoundWorld σ) (sourceLen : UInt64) :
    Option (DeflateWrap σ) → Option UInt64
  | none => some (compressBound world sourceLen)
  | some x =>
    match x.state with
    | .null => some (-2)
    | .internal =>
      if x.freed then none
      else (subBound world sourceLen x).map throughInt

------------------------------------------------------------
-- The Hardware
------------------------------------------------------------

theorem toNat_hDeflateBound
    {pageSize : UInt32}
    {sourceLen : UInt64}
    (hRoom :
      sourceLen.toNat * 15 + pageSize.toNat < 2 ^ 64) :
    (hDeflateBound pageSize sourceLen).toNat =
      sourceLen.toNat * 15 / 8 + pageSize.toNat := by
  unfold hDeflateBound
  have hTimes :
      (sourceLen * 15).toNat = sourceLen.toNat * 15 := by
    rw [UInt64.toNat_mul]
    exact Nat.mod_eq_of_lt (Nat.lt_of_add_right_lt hRoom)
  rw [UInt64.toNat_add, UInt64.toNat_div, hTimes]
  rw [UInt32.toNat_toUInt64]
  apply Nat.mod_eq_of_lt
  change sourceLen.toNat * 15 / 8 + pageSize.toNat < 2 ^ 64
  omega

theorem hDeflateBound_mono
    {pageSize : UInt32}
    {m n : UInt64}
    (hLe : m ≤ n)
    (hRoom : n.toNat * 15 + pageSize.toNat < 2 ^ 64) :
    (hDeflateBound pageSize m).toNat ≤
      (hDeflateBound pageSize n).toNat := by
  have hNat : m.toNat ≤ n.toNat := UInt64.le_iff_toNat_le.mp hLe
  rw [toNat_hDeflateBound hRoom, toNat_hDeflateBound (by omega)]
  omega

------------------------------------------------------------
-- The Bound of the Wrapper
------------------------------------------------------------

/-
  The result is the bound of the implementation in use, and
  with the hardware one at least 15/8 of the length and no
  less than the result for any smaller length.
-/
def Bounds
    (world : BoundWorld σ)
    (sourceLen : UInt64)
    (x : DeflateWrap σ) : Prop :=
  ∃ bound,
    subBound world sourceLen x = some bound ∧
    deflateBound world sourceLen (some x) = some bound ∧
    (x.w.impl = .hw →
      sourceLen.toNat * 15 / 8 ≤ bound.toNat ∧
      ∀ m ≤ sourceLen, ∀ lower,
        deflateBound world m (some x) = some lower →
          lower ≤ bound)

/-
  The hardware bound is below 2^31; that of the software is,
  or it is among the last 2^31 values of a `uLong`.
-/
def BoundFits
    (world : BoundWorld σ)
    (sourceLen : UInt64)
    (x : DeflateWrap σ) : Prop :=
  match x.w.impl with
  | .hw =>
      sourceLen.toNat * 15 / 8 + world.pageSize.toNat < 2 ^ 31
  | .sw =>
      ∀ bound,
        subBound world sourceLen x = some bound →
          bound.toNat < 2 ^ 31 ∨
            2 ^ 64 - 2 ^ 31 ≤ bound.toNat

variable {world : BoundWorld σ}
variable {sourceLen : UInt64}
variable {x : DeflateWrap σ}

theorem Held.deflateBound
    (hHeld : Held x) :
    Wrapper.deflateBound world sourceLen (some x) =
      (subBound world sourceLen x).map throughInt := by
  unfold Wrapper.deflateBound
  simp only [hHeld.state, hHeld.kept, Bool.false_eq_true,
    if_false]

theorem Held.subBound_isSome
    (hHeld : Held x) :
    ∃ bound, subBound world sourceLen x = some bound := by
  rcases hHeld.owns with ⟨sub, hPriv, hImpl⟩
  unfold subBound
  rw [hPriv, ← hImpl]
  cases sub with
  | hw s => exact ⟨_, rfl⟩
  | sw s => exact ⟨_, rfl⟩

theorem subBound_hw
    (hHw : x.w.impl = .hw) :
    subBound world sourceLen x =
      some (hDeflateBound world.pageSize sourceLen) := by
  unfold subBound
  rw [hHw]

/- The exact bound of the hardware is one. -/
theorem Held.bounds_hw
    (hHeld : Held x)
    (hHw : x.w.impl = .hw)
    (hFits :
      sourceLen.toNat * 15 / 8 + world.pageSize.toNat <
        2 ^ 31)
    (hRoom :
      sourceLen.toNat * 15 + world.pageSize.toNat < 2 ^ 64) :
    Bounds world sourceLen x := by
  have hExact :
      ∀ m ≤ sourceLen,
        Wrapper.deflateBound world m (some x) =
          some (hDeflateBound world.pageSize m) := by
    intro m hLe
    have hNat := UInt64.le_iff_toNat_le.mp hLe
    rw [hHeld.deflateBound, subBound_hw hHw]
    apply congrArg some
    apply (throughInt_eq_iff _).mpr
    rw [toNat_hDeflateBound (by omega)]
    omega
  refine ⟨_, subBound_hw hHw, hExact _ (UInt64.le_refl _), ?_⟩
  intro _
  constructor
  · rw [toNat_hDeflateBound hRoom]
    omega
  · intro m hLe lower hLower
    rw [hExact m hLe] at hLower
    cases hLower
    exact UInt64.le_iff_toNat_le.mpr
      (hDeflateBound_mono hLe hRoom)

/-
  As long as the length times 15 and a page fit a `uLong`, the
  result is a bound exactly if that of the implementation in
  use fits the `int`.
-/
theorem deflateBound_bounds_iff
    (world : BoundWorld σ)
    (sourceLen : UInt64)
    (x : DeflateWrap σ)
    (hHeld : Held x)
    (hRoom :
      sourceLen.toNat * 15 + world.pageSize.toNat < 2 ^ 64) :
    Bounds world sourceLen x ↔
      BoundFits world sourceLen x := by
  unfold BoundFits
  constructor
  · rintro ⟨bound, hSub, hBound, _⟩
    rw [hHeld.deflateBound, hSub] at hBound
    have hFits :=
      (throughInt_eq_iff bound).mp (Option.some.inj hBound)
    cases hImpl : x.w.impl with
    | hw =>
        rw [subBound_hw hImpl] at hSub
        cases hSub
        rw [toNat_hDeflateBound hRoom] at hFits
        -- fifteen eighths of a length are far from the end
        have hPage := world.pageSize.toNat_lt
        simp only
        omega
    | sw =>
        intro bound' hSub'
        rw [hSub] at hSub'
        cases hSub'
        exact hFits
  · intro hFits
    cases hImpl : x.w.impl with
    | hw =>
        rw [hImpl] at hFits
        exact hHeld.bounds_hw hImpl hFits hRoom
    | sw =>
        rw [hImpl] at hFits
        rcases hHeld.subBound_isSome with ⟨bound, hSub⟩
        refine ⟨bound, hSub, ?_, ?_⟩
        · rw [hHeld.deflateBound, hSub]
          apply congrArg some
          exact (throughInt_eq_iff bound).mpr
            (hFits bound hSub)
        · intro hHw
          rw [hImpl] at hHw
          cases hHw

end Calls

------------------------------------------------------------
-- Two Gibibytes
------------------------------------------------------------

/- A page of 4 KiB; the software adds 13 bytes. -/
def plainBounds : BoundWorld Unit :=
  ⟨4096, fun _ sourceLen => sourceLen + 13⟩

/- A stream of the hardware. -/
def boundStream : DeflateWrap Unit :=
  { strm := ZStream.initial
    state := .internal
    w :=
      { impl := .hw
        privData :=
          .live
            (.hw
              (hDeflateInit
                (deflateInitState
                  (DeflStream.zeroed .gzip true)) 0 4096).s)
        more := ⟨6, 8, 31, 8, 0⟩ }
    freed := false }

theorem boundStream_held : Held boundStream :=
  ⟨rfl, rfl, _, rfl, rfl⟩

theorem deflateBound_bounds_kib :
    1024 * 15 + 4096 < 2 ^ 64 ∧
      Bounds plainBounds 1024 boundStream :=
  ⟨by decide,
    (deflateBound_bounds_iff plainBounds 1024 boundStream
      boundStream_held (by decide)).mpr
      (show 1024 * 15 / 8 + 4096 < 2 ^ 31 by decide)⟩

/- A page for more than two gibibytes. -/
theorem deflateBound_page :
    deflateBound plainBounds 2290649225 (some boundStream) =
      some 4096 :=
  rfl

theorem deflateBound_not_bounds :
    2290649225 * 15 + 4096 < 2 ^ 64 ∧ Held boundStream ∧
      ¬ Bounds plainBounds 2290649225 boundStream := by
  refine ⟨by decide, boundStream_held, ?_⟩
  rintro ⟨bound, _, hBound, hHw⟩
  rw [deflateBound_page] at hBound
  cases hBound
  have hLe := (hHw rfl).1
  revert hLe
  decide

end Wrapper
