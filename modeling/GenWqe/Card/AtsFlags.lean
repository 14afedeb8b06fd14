import GenWqe.Lib.Lockstep
import GenWqe.Lib.Nibbles
import GenWqe.Card.Library

/-
  `genwqe_card_set_ats_flags` as a map from the slots of the
  ATS array, four bits for every eight bytes of the scb, to
  their flags.

  Key definitions include:
    * `genwqeCardSetAtsFlags`
    * `AtsCall`, `AtsCall.Fits`
    * `AtsMap`

  Main results:
    * `setAtsFlags_accepts_iff`
    * `setAtsFlags_writes`
    * `setAtsFlags_map_iff`
-/

------------------------------------------------------------
-- The Function
------------------------------------------------------------

namespace Libcard

/- `GENWQE_ERR_INVAL` -/
def genwqeErrInval : Int := -205

/- The array `mask`, of two bytes. -/
def atsMask (idx : UInt32) : UInt8 :=
  if idx = 0 then 0xf0 else 0x0f

/-
  `genwqe_card_set_ats_flags` on the memory from `scb` on. The
  offsets are of the type size_t, `ats` and `idx` are unsigned
  ints.
-/
def genwqeCardSetAtsFlags
    (scb size offs : UInt64) (flags : UInt32)
    (atsArray : ByteMem) : Int × ByteMem :=
  if scb % 8 ≠ 0 ∨ size % 8 ≠ 0 ∨ offs % 8 ≠ 0 ∨
      offs > size - 8 then
    (genwqeErrInval, atsArray)
  else
    let ats := (offs / 16).toUInt32.toNat
    let idx := ((offs / 8) &&& 1).toUInt32
    let b := atsArray ats &&& ~~~ atsMask idx
    let b :=
      if idx = 0 then
        b ||| ((0x0f &&& flags) <<< 4).toUInt8
      else b ||| (0x0f &&& flags).toUInt8
    (genwqeOk, Function.update atsArray ats b)

/- The arguments of a call on one scb. -/
structure AtsCall where
  size : UInt64
  offs : UInt64
  flags : UInt32

/- One call. -/
def setAtsStep (scb : UInt64) (atsArray : ByteMem)
    (call : AtsCall) : Int × ByteMem :=
  genwqeCardSetAtsFlags scb call.size call.offs call.flags
    atsArray

------------------------------------------------------------
-- One Call
------------------------------------------------------------

namespace AtsCall

/- The call names a slot that lies inside of its size. -/
def Fits (call : AtsCall) : Prop :=
  call.size.toNat % 8 = 0 ∧ call.offs.toNat % 8 = 0 ∧
    call.offs.toNat + 8 ≤ call.size.toNat

instance (call : AtsCall) : Decidable call.Fits :=
  inferInstanceAs (Decidable (_ ∧ _ ∧ _))

/- The slot that the call names. -/
def slot (call : AtsCall) : Nat := call.offs.toNat / 8

/- The low four bits of the flags. -/
def entry (call : AtsCall) : BitVec 4 :=
  call.flags.toBitVec.setWidth 4

/- An empty scb with an offset that is aligned. -/
def OnEmpty (call : AtsCall) : Prop :=
  call.size = 0 ∧ call.offs.toNat % 8 = 0

instance (call : AtsCall) : Decidable call.OnEmpty :=
  inferInstanceAs (Decidable (_ ∧ _))

end AtsCall

theorem mod_eight_ne_zero_iff (x : UInt64) :
    x % 8 ≠ 0 ↔ x.toNat % 8 ≠ 0 := by
  rw [ne_eq, ← UInt64.toNat_inj, UInt64.toNat_mod]
  exact Iff.rfl

/- The check of an aligned scb, without the wrapping. -/
theorem setAtsFlags_accepts_iff
    {scb : UInt64}
    (hAligned : scb % 8 = 0)
    (call : AtsCall) :
    (scb % 8 ≠ 0 ∨ call.size % 8 ≠ 0 ∨ call.offs % 8 ≠ 0 ∨
        call.offs > call.size - 8) ↔
      ¬ (call.Fits ∨ call.OnEmpty) := by
  have hSub :
      (call.size - 8).toNat =
        (2 ^ 64 - 8 + call.size.toNat) % 2 ^ 64 :=
    UInt64.toNat_sub _ _
  have hZero : call.size = 0 ↔ call.size.toNat = 0 := by
    rw [← UInt64.toNat_inj]
    exact Iff.rfl
  have hSize := call.size.toNat_lt
  have hOffs := call.offs.toNat_lt
  rw [mod_eight_ne_zero_iff call.size,
    mod_eight_ne_zero_iff call.offs, gt_iff_lt,
    UInt64.lt_iff_toNat_lt, hSub]
  unfold AtsCall.Fits AtsCall.OnEmpty
  rw [hZero]
  simp only [hAligned, ne_eq, not_true_eq_false, false_or]
  omega

/- The upper entry of a byte replaced by the flags. -/
theorem atsByte_high (b : UInt8) (flags : UInt32) :
    (b &&& ~~~ (0xf0 : UInt8)) |||
        ((0x0f &&& flags) <<< 4).toUInt8 =
      UInt8.ofBitVec
        (flags.toBitVec.setWidth 4 ++
          b.toBitVec.extractLsb' 0 4) := by
  apply UInt8.toBitVec_inj.mp
  have hBits :
      ((b &&& ~~~ (0xf0 : UInt8)) |||
          ((0x0f &&& flags) <<< 4).toUInt8).toBitVec =
        (b.toBitVec &&& 0x0f#8) |||
          ((0x0f#32 &&& flags.toBitVec) <<< 4).setWidth 8 :=
    rfl
  rw [hBits]
  apply BitVec.eq_of_getLsbD_eq
  intro i hi
  rw [BitVec.getLsbD_append]
  interval_cases i <;> simp

/- The lower one. -/
theorem atsByte_low (b : UInt8) (flags : UInt32) :
    (b &&& ~~~ (0x0f : UInt8)) ||| (0x0f &&& flags).toUInt8 =
      UInt8.ofBitVec
        (b.toBitVec.extractLsb' 4 4 ++
          flags.toBitVec.setWidth 4) := by
  apply UInt8.toBitVec_inj.mp
  have hBits :
      ((b &&& ~~~ (0x0f : UInt8)) |||
          (0x0f &&& flags).toUInt8).toBitVec =
        (b.toBitVec &&& 0xf0#8) |||
          (0x0f#32 &&& flags.toBitVec).setWidth 8 := rfl
  rw [hBits]
  apply BitVec.eq_of_getLsbD_eq
  intro i hi
  rw [BitVec.getLsbD_append]
  interval_cases i <;> simp

/- The slot whose entry a call writes: `ats` has 32 bits. -/
def AtsCall.written (call : AtsCall) : Nat :=
  call.slot % 2 ^ 33

/- A call that is not refused writes one entry. -/
theorem setAtsFlags_writes
    {scb : UInt64}
    (hAligned : scb % 8 = 0)
    {call : AtsCall}
    (hIn : call.Fits ∨ call.OnEmpty)
    (atsArray : ByteMem) :
    setAtsStep scb atsArray call =
      (genwqeOk,
        setNibble atsArray call.written call.entry) := by
  have hCheck := (setAtsFlags_accepts_iff hAligned call).not
  have hAts :
      (call.offs / 16).toUInt32.toNat = call.written / 2 := by
    rw [UInt64.toNat_toUInt32, UInt64.toNat_div,
      show (16 : UInt64).toNat = 16 from rfl]
    unfold AtsCall.written AtsCall.slot
    omega
  have hIdx :
      (((call.offs / 8) &&& 1).toUInt32).toNat =
        call.written % 2 := by
    have hMask := Nat.and_one_is_mod (call.offs.toNat / 8)
    rw [UInt64.toNat_toUInt32, UInt64.toNat_and,
      UInt64.toNat_div, show (8 : UInt64).toNat = 8 from rfl,
      show (1 : UInt64).toNat = 1 from rfl, hMask]
    unfold AtsCall.written AtsCall.slot
    omega
  have hZero :
      ((call.offs / 8) &&& 1).toUInt32 = 0 ↔
        call.written % 2 = 0 := by
    rw [← UInt32.toNat_inj, hIdx]
    exact Iff.rfl
  unfold setAtsStep genwqeCardSetAtsFlags
  rw [if_neg (hCheck.mpr (not_not_intro hIn))]
  simp only [hAts]
  unfold setNibble withNibble atsMask AtsCall.entry
  by_cases hEven : call.written % 2 = 0
  · simp only [if_pos (hZero.mpr hEven), if_pos hEven]
    rw [atsByte_high]
  · have hOdd := fun h => hEven (hZero.mp h)
    simp only [if_neg hOdd, if_neg hEven]
    rw [atsByte_low]

/- A refused call writes nothing. -/
theorem setAtsFlags_refuses
    {scb : UInt64}
    (hAligned : scb % 8 = 0)
    {call : AtsCall}
    (hOut : ¬ (call.Fits ∨ call.OnEmpty))
    (atsArray : ByteMem) :
    setAtsStep scb atsArray call =
      (genwqeErrInval, atsArray) := by
  have hCheck := setAtsFlags_accepts_iff hAligned call
  unfold setAtsStep genwqeCardSetAtsFlags
  rw [if_pos (hCheck.mpr hOut)]

------------------------------------------------------------
-- The Map
------------------------------------------------------------

/- One call on a map from slots to flags. -/
def mapStep (entries : Nat → BitVec 4) (call : AtsCall) :
    Int × (Nat → BitVec 4) :=
  if call.Fits then
    (genwqeOk,
      Function.update entries call.slot call.entry)
  else (genwqeErrInval, entries)

/- What a call is to return. -/
def AtsCall.answer (call : AtsCall) : Int :=
  if call.Fits then genwqeOk else genwqeErrInval

/- The slots that are to be written, with their flags. -/
def slotWrites (calls : List AtsCall) :
    List (Nat × BitVec 4) :=
  (calls.filter fun call => call.Fits).map
    fun call => (call.slot, call.entry)

/- The flags of the last accepted call for a slot. -/
def lastFlags (calls : List AtsCall) (k : Nat) :
    Option (BitVec 4) :=
  lastWrite k (slotWrites calls)

/-
  A sequence of calls acts as a map: a call is accepted where
  it fits, every entry is that of the last accepted call or
  what it was, and no byte behind the sizes is touched.
-/
structure AtsMap (scb : UInt64) (calls : List AtsCall) :
    Prop where
  accepted :
    ∀ atsArray,
      (transcript (setAtsStep scb) calls atsArray).1 =
        calls.map AtsCall.answer
  entries :
    ∀ atsArray k,
      nibbleAt
          (transcript (setAtsStep scb) calls atsArray).2 k =
        (lastFlags calls k).getD (nibbleAt atsArray k)
  inside :
    ∀ atsArray i,
      (∀ call ∈ calls, call.size.toNat ≤ i) →
        (transcript (setAtsStep scb) calls atsArray).2 i =
          atsArray i

/- The map is left with the last writes. -/
theorem transcript_mapStep
    (calls : List AtsCall) (f : Nat → BitVec 4) :
    transcript mapStep calls f =
      (calls.map AtsCall.answer,
        fun k => (lastFlags calls k).getD (f k)) := by
  have hBoth :
      transcript mapStep calls f =
        (calls.map AtsCall.answer,
          (slotWrites calls).foldl
            (fun f write =>
              Function.update f write.1 write.2) f) := by
    induction calls generalizing f with
    | nil => rfl
    | cons call rest ih =>
        by_cases hFits : call.Fits
        · have hHere :
              mapStep f call =
                (genwqeOk,
                  Function.update f call.slot call.entry) :=
            if_pos hFits
          simp only [transcript, hHere, ih, List.map_cons,
            AtsCall.answer, if_pos hFits]
          simp [slotWrites, hFits]
        · have hHere :
              mapStep f call = (genwqeErrInval, f) :=
            if_neg hFits
          simp only [transcript, hHere, ih, List.map_cons,
            AtsCall.answer, if_neg hFits]
          simp [slotWrites, hFits]
  rw [hBoth]
  congr 1
  funext k
  exact foldl_update_eq (slotWrites calls) f k

/-
  The calls that the array can follow: none on an empty scb,
  and none whose byte index needs more than 32 bits.
-/
def AtsCall.Proper (call : AtsCall) : Prop :=
  ¬ call.OnEmpty ∧
    (call.Fits → call.offs.toNat < 2 ^ 36)

/- One proper call on the array is one on the map. -/
theorem setAtsStep_simulates
    {scb : UInt64}
    (hAligned : scb % 8 = 0)
    (atsArray : ByteMem)
    (f : Nat → BitVec 4)
    (call : AtsCall)
    (hProper : call.Proper)
    (hRel : nibbleAt atsArray = f) :
    (setAtsStep scb atsArray call).1 =
        (mapStep f call).1 ∧
      nibbleAt (setAtsStep scb atsArray call).2 =
        (mapStep f call).2 := by
  subst hRel
  by_cases hFits : call.Fits
  · have hSlot : call.written = call.slot := by
      have hLow := hProper.2 hFits
      unfold AtsCall.written AtsCall.slot
      omega
    have hMap :
        mapStep (nibbleAt atsArray) call =
          (genwqeOk,
            Function.update (nibbleAt atsArray) call.slot
              call.entry) :=
      if_pos hFits
    rw [setAtsFlags_writes hAligned (Or.inl hFits), hMap,
      hSlot, nibbleAt_setNibble]
    exact ⟨rfl, rfl⟩
  · have hOut : ¬ (call.Fits ∨ call.OnEmpty) := by
      intro hIn
      rcases hIn with hIn | hEmpty
      · exact hFits hIn
      · exact hProper.1 hEmpty
    have hMap :
        mapStep (nibbleAt atsArray) call =
          (genwqeErrInval, nibbleAt atsArray) :=
      if_neg hFits
    rw [setAtsFlags_refuses hAligned hOut, hMap]
    exact ⟨rfl, rfl⟩

/- Nothing is to be written behind the sizes. -/
theorem lastFlags_behind
    {calls : List AtsCall}
    {k : Nat}
    (hBehind : ∀ call ∈ calls, call.size.toNat ≤ k) :
    lastFlags calls k = none := by
  apply lastWrite_eq_none
  intro write hMem hKey
  unfold slotWrites at hMem
  rcases List.mem_map.mp hMem with ⟨call, hCall, rfl⟩
  rcases List.mem_filter.mp hCall with ⟨hIn, hFits⟩
  have hSize := hBehind call hIn
  have hLast := (of_decide_eq_true hFits).2.2
  simp only [AtsCall.slot] at hKey
  omega

/- Proper calls act as the map. -/
theorem atsMap_of_proper
    {scb : UInt64}
    (hAligned : scb % 8 = 0)
    {calls : List AtsCall}
    (hProper : ∀ call ∈ calls, call.Proper) :
    AtsMap scb calls := by
  have hSame := fun atsArray : ByteMem =>
    transcript_simulates (setAtsStep_simulates hAligned)
      (s := atsArray) rfl hProper
  simp only [transcript_mapStep] at hSame
  have hEntries :
      ∀ atsArray k,
        nibbleAt
            (transcript (setAtsStep scb) calls atsArray).2 k =
          (lastFlags calls k).getD (nibbleAt atsArray k) := by
    intro atsArray k
    rw [(hSame atsArray).2]
  refine ⟨fun atsArray => (hSame atsArray).1, hEntries, ?_⟩
  intro atsArray i hBehind
  apply eq_of_nibbles
  · rw [hEntries, lastFlags_behind]
    · rfl
    · intro call hCall
      have hSize := hBehind call hCall
      omega
  · rw [hEntries, lastFlags_behind]
    · rfl
    · intro call hCall
      have hSize := hBehind call hCall
      omega

------------------------------------------------------------
-- Calls That the Array Does Not Follow
------------------------------------------------------------

/- What the code returns does not depend on the array. -/
theorem setAtsStep_rc
    {scb : UInt64}
    (hAligned : scb % 8 = 0)
    (atsArray : ByteMem)
    (call : AtsCall) :
    (setAtsStep scb atsArray call).1 =
      if call.Fits ∨ call.OnEmpty then genwqeOk
      else genwqeErrInval := by
  by_cases hIn : call.Fits ∨ call.OnEmpty
  · rw [setAtsFlags_writes hAligned hIn, if_pos hIn]
  · rw [setAtsFlags_refuses hAligned hIn, if_neg hIn]

theorem transcript_rc
    {scb : UInt64}
    (hAligned : scb % 8 = 0)
    (calls : List AtsCall)
    (atsArray : ByteMem) :
    (transcript (setAtsStep scb) calls atsArray).1 =
      calls.map fun call =>
        if call.Fits ∨ call.OnEmpty then genwqeOk
        else genwqeErrInval := by
  induction calls generalizing atsArray with
  | nil => rfl
  | cons call rest ih =>
      simp only [transcript, List.map_cons]
      rw [ih, setAtsStep_rc hAligned]

/- No call reaches an entry whose byte needs 33 bits. -/
theorem setAtsStep_far
    {scb : UInt64}
    (hAligned : scb % 8 = 0)
    {k : Nat}
    (hFar : 2 ^ 33 ≤ k)
    (atsArray : ByteMem)
    (call : AtsCall) :
    nibbleAt (setAtsStep scb atsArray call).2 k =
      nibbleAt atsArray k := by
  by_cases hIn : call.Fits ∨ call.OnEmpty
  · have hNear : call.written < 2 ^ 33 :=
      Nat.mod_lt _ (by decide)
    have hOther : k ≠ call.written := by omega
    rw [setAtsFlags_writes hAligned hIn, nibbleAt_setNibble,
      Function.update_of_ne hOther]
  · rw [setAtsFlags_refuses hAligned hIn]

theorem transcript_far
    {scb : UInt64}
    (hAligned : scb % 8 = 0)
    {k : Nat}
    (hFar : 2 ^ 33 ≤ k)
    (calls : List AtsCall)
    (atsArray : ByteMem) :
    nibbleAt
        (transcript (setAtsStep scb) calls atsArray).2 k =
      nibbleAt atsArray k := by
  induction calls generalizing atsArray with
  | nil => rfl
  | cons call rest ih =>
      simp only [transcript]
      rw [ih, setAtsStep_far hAligned hFar]

/- A sequence that acts as the map has proper calls only. -/
theorem AtsMap.proper
    {scb : UInt64}
    (hAligned : scb % 8 = 0)
    {calls : List AtsCall}
    (hMap : AtsMap scb calls)
    {call : AtsCall}
    (hCall : call ∈ calls) :
    call.Proper := by
  constructor
  · intro hEmpty
    have hRc := hMap.accepted fun _ => 0
    rw [transcript_rc hAligned] at hRc
    have hSame := List.map_inj_left.mp hRc call hCall
    have hNot : ¬ call.Fits := by
      intro hFits
      have hLast := hFits.2.2
      rw [hEmpty.1] at hLast
      simp at hLast
    unfold AtsCall.answer at hSame
    rw [if_pos (Or.inr hEmpty), if_neg hNot] at hSame
    cases hSame
  · intro hFits
    by_contra hLarge
    have hFar : 2 ^ 33 ≤ call.slot := by
      unfold AtsCall.slot
      omega
    have hWrite :
        (call.slot, call.entry) ∈ slotWrites calls := by
      apply List.mem_map_of_mem
      exact List.mem_filter.mpr ⟨hCall, by simp [hFits]⟩
    rcases lastWrite_of_mem hWrite with ⟨v, hLast⟩
    have hStays :
        ∀ atsArray, nibbleAt atsArray call.slot = v := by
      intro atsArray
      have hEntry := hMap.entries atsArray call.slot
      rw [transcript_far hAligned hFar] at hEntry
      unfold lastFlags at hEntry
      rw [hLast] at hEntry
      exact hEntry
    have hZeros := hStays fun _ => 0
    have hOnes := hStays fun _ => 0xff
    rw [← hZeros] at hOnes
    unfold nibbleAt at hOnes
    dsimp only at hOnes
    split at hOnes
    · revert hOnes
      decide
    · revert hOnes
      decide

/-
  A sequence of calls on an aligned scb acts as the map
  exactly where none is made on an empty one with an aligned
  offset, and none is accepted at 64 GiB or behind.
-/
theorem setAtsFlags_map_iff
    {scb : UInt64}
    (hAligned : scb % 8 = 0)
    (calls : List AtsCall) :
    AtsMap scb calls ↔ ∀ call ∈ calls, call.Proper := by
  constructor
  · intro hMap call hCall
    exact hMap.proper hAligned hCall
  · intro hProper
    exact atsMap_of_proper hAligned hProper

/- An scb of 64 bytes whose first slot is set twice. -/
theorem setAtsFlags_map_twice :
    AtsMap 0x1000 [⟨64, 8, 5⟩, ⟨64, 56, 2⟩, ⟨64, 8, 3⟩] ∧
      ¬ AtsMap 0x1000 [⟨0, 8, 5⟩] := by
  constructor
  · apply (setAtsFlags_map_iff (by decide) _).mpr
    intro call hCall
    fin_cases hCall <;> exact ⟨by decide, fun _ => by decide⟩
  · intro hMap
    exact ((setAtsFlags_map_iff (by decide) _).mp hMap
      ⟨0, 8, 5⟩ (by simp)).1 (by decide)

/- On an empty scb the first slot is set. -/
theorem setAtsFlags_empty_accepted :
    ¬ AtsMap 0x1000 [⟨0, 0, 5⟩] := by
  intro hMap
  have hRc := hMap.accepted fun _ => 0
  revert hRc
  decide

end Libcard
