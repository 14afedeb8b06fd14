import GenWqe.Lib.ByteMem

/-
  Byte memory as an array of four bit entries, the high half
  of a byte before the low one, and what a list of writes
  leaves in a map.

  Key definitions include:
    * `nibbleAt`, `setNibble`
    * `lastWrite`

  Main results:
    * `nibbleAt_setNibble`
    * `eq_of_nibbles`
    * `foldl_update_eq`
-/

------------------------------------------------------------
-- Entries of a Byte
------------------------------------------------------------

/- Entry `k` of the array. -/
def nibbleAt (m : ByteMem) (k : Nat) : BitVec 4 :=
  if k % 2 = 0 then (m (k / 2)).toBitVec.extractLsb' 4 4
  else (m (k / 2)).toBitVec.extractLsb' 0 4

/- A byte with one of its two entries replaced. -/
def withNibble (b : UInt8) (k : Nat) (v : BitVec 4) :
    UInt8 :=
  if k % 2 = 0 then
    UInt8.ofBitVec (v ++ b.toBitVec.extractLsb' 0 4)
  else UInt8.ofBitVec (b.toBitVec.extractLsb' 4 4 ++ v)

/- The array with entry `k` replaced. -/
def setNibble (m : ByteMem) (k : Nat) (v : BitVec 4) :
    ByteMem :=
  Function.update m (k / 2) (withNibble (m (k / 2)) k v)

theorem extract_append_high (a b : BitVec 4) :
    (a ++ b).extractLsb' 4 4 = a := by
  apply BitVec.eq_of_getLsbD_eq
  intro i hi
  rw [BitVec.getLsbD_extractLsb', BitVec.getLsbD_append]
  simp [hi]

theorem extract_append_low (a b : BitVec 4) :
    (a ++ b).extractLsb' 0 4 = b := by
  apply BitVec.eq_of_getLsbD_eq
  intro i hi
  rw [BitVec.getLsbD_extractLsb', BitVec.getLsbD_append]
  simp [hi]

/- A byte is its two entries. -/
theorem append_extract (x : BitVec 8) :
    x.extractLsb' 4 4 ++ x.extractLsb' 0 4 = x := by
  apply BitVec.eq_of_getLsbD_eq
  intro i hi
  rw [BitVec.getLsbD_append]
  by_cases hLow : i < 4
  · simp [hLow]
  · have hHigh : i - 4 < 4 := by omega
    have hBack : 4 + (i - 4) = i := by omega
    simp [hLow, hHigh, hBack]

/- The written entry, and all the others. -/
theorem nibbleAt_setNibble
    (m : ByteMem) (k : Nat) (v : BitVec 4) :
    nibbleAt (setNibble m k v) =
      Function.update (nibbleAt m) k v := by
  funext j
  by_cases hSame : j = k
  · subst hSame
    rw [Function.update_self]
    unfold nibbleAt setNibble withNibble
    rw [Function.update_self]
    by_cases hEven : j % 2 = 0
    · simp only [if_pos hEven]
      exact extract_append_high _ _
    · simp only [if_neg hEven]
      exact extract_append_low _ _
  · rw [Function.update_of_ne hSame]
    unfold nibbleAt setNibble
    by_cases hByte : j / 2 = k / 2
    · rw [hByte, Function.update_self]
      unfold withNibble
      by_cases hEven : j % 2 = 0
      · have hOdd : ¬ k % 2 = 0 := by omega
        simp only [if_pos hEven, if_neg hOdd]
        exact extract_append_high _ _
      · have hOther : k % 2 = 0 := by omega
        simp only [if_neg hEven, if_pos hOther]
        exact extract_append_low _ _
    · rw [Function.update_of_ne hByte]

/- The entries determine the memory. -/
theorem eq_of_nibbles
    {m m' : ByteMem}
    {i : Nat}
    (hHigh : nibbleAt m (2 * i) = nibbleAt m' (2 * i))
    (hLow :
      nibbleAt m (2 * i + 1) = nibbleAt m' (2 * i + 1)) :
    m i = m' i := by
  have hDiv : 2 * i / 2 = i := by omega
  have hDiv' : (2 * i + 1) / 2 = i := by omega
  have hMod : (2 * i) % 2 = 0 := by omega
  have hMod' : ¬ (2 * i + 1) % 2 = 0 := by omega
  unfold nibbleAt at hHigh hLow
  rw [hDiv] at hHigh
  rw [hDiv'] at hLow
  rw [if_pos hMod, if_pos hMod] at hHigh
  rw [if_neg hMod', if_neg hMod'] at hLow
  apply UInt8.toBitVec_inj.mp
  rw [← append_extract (m i).toBitVec, hHigh, hLow,
    append_extract]

------------------------------------------------------------
-- Writes to a Map
------------------------------------------------------------

section LastWrite

variable {κ β : Type*} [DecidableEq κ]

/- The value that the last write to a key has written. -/
def lastWrite (k : κ) : List (κ × β) → Option β
  | [] => none
  | (key, v) :: rest =>
      match lastWrite k rest with
      | some later => some later
      | none => if key = k then some v else none

theorem lastWrite_eq_none
    {k : κ}
    {writes : List (κ × β)}
    (hNone : ∀ write ∈ writes, write.1 ≠ k) :
    lastWrite k writes = none := by
  induction writes with
  | nil => rfl
  | cons write rest ih =>
      rcases write with ⟨key, v⟩
      have hKey : key ≠ k := hNone (key, v) (by simp)
      have hRest := ih fun later hLater =>
        hNone later (List.mem_cons_of_mem _ hLater)
      simp only [lastWrite, hRest, if_neg hKey]

theorem lastWrite_of_mem
    {k : κ}
    {v : β}
    {writes : List (κ × β)}
    (hMem : (k, v) ∈ writes) :
    ∃ later, lastWrite k writes = some later := by
  induction writes with
  | nil => cases hMem
  | cons write rest ih =>
      rcases write with ⟨key, w⟩
      unfold lastWrite
      cases hLater : lastWrite k rest with
      | some later => exact ⟨later, rfl⟩
      | none =>
          rcases List.mem_cons.mp hMem with hHere | hRest
          · cases hHere
            exact ⟨v, by simp⟩
          · rcases ih hRest with ⟨later, hSome⟩
            rw [hLater] at hSome
            cases hSome

/- What all of the writes leave in a map. -/
theorem foldl_update_eq
    (writes : List (κ × β)) (f : κ → β) (k : κ) :
    writes.foldl
        (fun f write => Function.update f write.1 write.2)
        f k =
      (lastWrite k writes).getD (f k) := by
  induction writes generalizing f with
  | nil => rfl
  | cons write rest ih =>
      rcases write with ⟨key, v⟩
      rw [List.foldl_cons, ih, lastWrite]
      cases hLater : lastWrite k rest with
      | some later => rfl
      | none =>
          by_cases hKey : key = k
          · subst hKey
            simp
          · simp [hKey, Function.update_of_ne
              (Ne.symm hKey)]

end LastWrite
