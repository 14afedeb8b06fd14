import GenWqe.Inflate.SaveArea

/-
  What the update of the save area comes to. The scratch and
  the input are one byte string, the data area, in which the
  card's positions count; a new header and the bytes that were
  not processed are moved out of it.

  Key definitions include:
    * `Area` and `dataArea`
    * `SaveOk`

  Main results:
    * `copyBehindTree_eq`
    * `extractNewTree_spec`
    * `scratchUpdate_spec`
-/

------------------------------------------------------------
-- The Data Area
------------------------------------------------------------

namespace Zedc

open Bits

/- The scratch of `S` bytes at `T`, and the input behind it. -/
def dataArea
    (tree : ByteMem) (nextIn : List UInt8) (T S : Nat) :
    List UInt8 :=
  tree.window T S ++ nextIn

@[simp] theorem length_dataArea
    (tree : ByteMem) (nextIn : List UInt8) (T S : Nat) :
    (dataArea tree nextIn T S).length = S + nextIn.length := by
  simp [dataArea]

/- What a DDCB was offered in the save area. -/
structure Area (s : InflStream) (T S : Nat) : Prop where
  len : s.inHdrScratchLen = T + S
  fits : T + S ≤ zedcTreeLen
  scratch : s.save.scratchIb + s.save.scratchBits = 8 * S
  ib : s.save.scratchIb < 8
  hdrBits : s.inHdrBits ≤ 8 * T
  noHdr : s.inHdrBits = 0 → T = 0
  availIn : s.availIn ≤ zedcInflAvailInMax

theorem Area.inScratchBytes
    {s : InflStream}
    {T S : Nat}
    (hArea : Area s T S) :
    s.inScratchBytes = S := by
  have hScratch := hArea.scratch
  have hFits := hArea.fits
  unfold zedcTreeLen at hFits
  unfold InflStream.inScratchBytes
  omega

theorem copyFromInput_eq
    {tree : ByteMem}
    {nextIn : List UInt8}
    {target cnt srcOffs : Nat}
    (hEnd : srcOffs + cnt ≤ nextIn.length) :
    copyFromInput tree nextIn target cnt srcOffs =
      if cnt ≠ 0 ∧ target + cnt > zedcTreeLen then none
      else
        some
          (tree.store target
            ((nextIn.drop srcOffs).take cnt)) := by
  unfold copyFromInput
  by_cases hZero : cnt = 0
  · simp [hZero]
  · rw [if_neg hZero]
    by_cases hRoom : target + cnt > zedcTreeLen
    · rw [if_pos (Or.inr hRoom), if_pos ⟨hZero, hRoom⟩]
    · rw [if_neg (by omega), if_neg (by omega)]

/-
  A copy of `cnt` bytes at `k` of the data area, where it
  takes all the scratch behind `k`.
-/
theorem copyBehindTree_eq
    {s : InflStream}
    {T S target cnt k : Nat}
    (hArea : Area s T S)
    (hEnd : cnt ≠ 0 → k + cnt ≤ S + s.availIn)
    (hBack : cnt ≠ 0 → S ≤ k + cnt) :
    copyBehindTree s target cnt ((k : Int) - S) =
      if cnt ≠ 0 ∧ target + cnt > zedcTreeLen then none
      else
        some
          (s.save.tree.store target
            (((dataArea s.save.tree s.nextIn T S).drop
              k).take cnt)) := by
  have hLen := hArea.len
  have hFits := hArea.fits
  have hMax := hArea.availIn
  unfold zedcInflAvailInMax InflStream.availIn at hMax
  unfold InflStream.availIn at hEnd
  by_cases hZero : cnt = 0
  · subst hZero
    simp [copyBehindTree, copyFromInput]
  have hEnd := hEnd hZero
  have hBack := hBack hZero
  unfold copyBehindTree
  by_cases hNeg : k < S
  · -- the rest of the scratch, then bytes of the input
    rw [if_pos ⟨by omega, by omega⟩]
    have hAbs : ((k : Int) - S).natAbs = S - k := by omega
    simp only [hAbs]
    have hWrap : wrapSub 32 cnt (S - k) = cnt - (S - k) := by
      unfold zedcTreeLen at hFits
      exact wrapSub_of_le (by omega) (by omega)
    have hFrom : s.inHdrScratchLen - (S - k) = T + k := by
      omega
    have hDrop :
        (dataArea s.save.tree s.nextIn T S).drop k =
          s.save.tree.window (T + k) (S - k) ++ s.nextIn := by
      unfold dataArea
      rw [List.drop_append_of_le_length (by simp; omega),
        ByteMem.drop_window]
    have hTake :
        ((dataArea s.save.tree s.nextIn T S).drop k).take
            cnt =
          s.save.tree.window (T + k) (S - k) ++
            s.nextIn.take (cnt - (S - k)) := by
      rw [hDrop, List.take_append]
      simp only [ByteMem.length_window]
      rw [List.take_of_length_le (by simp; omega)]
    rw [hTake, hWrap, hFrom,
      copyFromInput_eq (by omega : 0 + (cnt - (S - k)) ≤ _),
      List.drop_zero]
    have hJoin := ByteMem.store_store_append s.save.tree target
      (s.save.tree.window (T + k) (S - k))
      (s.nextIn.take (cnt - (S - k)))
    rw [ByteMem.length_window] at hJoin
    rw [hJoin]
    by_cases hRoom : target + cnt > zedcTreeLen
    · have hNo : cnt ≠ 0 ∧ target + cnt > zedcTreeLen :=
        ⟨hZero, hRoom⟩
      have hRest : ¬ target + (S - k) > zedcTreeLen →
          cnt - (S - k) ≠ 0 ∧
            target + (S - k) + (cnt - (S - k)) >
              zedcTreeLen := by
        omega
      rw [if_pos hNo]
      split
      · rfl
      · rename_i hFirst
        rw [if_pos (hRest (by omega))]
    · rw [if_neg (by omega), if_neg (by omega),
        if_neg (by omega)]
  · -- only bytes of the input
    rw [if_neg (by omega)]
    have hToNat : ((k : Int) - S).toNat = k - S := by omega
    have hDrop :
        (dataArea s.save.tree s.nextIn T S).drop k =
          s.nextIn.drop (k - S) := by
      unfold dataArea
      rw [List.drop_append, ByteMem.length_window,
        List.drop_eq_nil_of_le (by simp; omega),
        List.nil_append]
    rw [hToNat, hDrop, copyFromInput_eq (by omega)]

/-
  A copy that ends before the scratch does is a fault: what
  is left to copy becomes a huge number.
-/
theorem copyBehindTree_fault
    {s : InflStream}
    {T S target cnt k : Nat}
    (hArea : Area s T S)
    (hSome : cnt ≠ 0)
    (hInside : k + cnt < S) :
    copyBehindTree s target cnt ((k : Int) - S) = none := by
  have hFits := hArea.fits
  unfold copyBehindTree
  rw [if_pos ⟨by omega, by omega⟩]
  have hAbs : ((k : Int) - S).natAbs = S - k := by omega
  simp only [hAbs]
  have hWrap :
      wrapSub 32 cnt (S - k) = 2 ^ 32 - (S - k - cnt) := by
    unfold zedcTreeLen at hFits
    exact wrapSub_of_lt (by omega) (by omega)
  split
  · rfl
  · unfold copyFromInput
    unfold zedcTreeLen at hFits ⊢
    rw [hWrap, if_neg (by omega), if_pos (by omega)]

------------------------------------------------------------
-- The New Tree
------------------------------------------------------------

/- The new header lies inside the bits that were offered. -/
structure HdrInside (s : InflStream) : Prop where
  some : 0 < s.asv.outHdrBits
  fits :
    s.hdrStartTotalBits + s.asv.outHdrBits ≤
      s.inHdrBits + s.save.scratchBits + 8 * s.availIn

/- Where the new header is in the data area, in bits. -/
def InflStream.hdrAt (s : InflStream) : Nat :=
  s.hdrStartTotalBits + s.save.scratchIb - s.inHdrBits

/- The bytes that hold the new header. -/
def InflStream.hdrLen (s : InflStream) : Nat :=
  (s.asv.outHdrBits + s.hdrAt % 8 + 7) / 8

/- The header is the first thing offered. -/
def InflStream.HdrFirst (s : InflStream) : Prop :=
  s.hdrStartTotalBits = 0 ∧ s.inHdrBits = 0

instance (s : InflStream) : Decidable s.HdrFirst := by
  unfold InflStream.HdrFirst
  infer_instance

/-
  The new header can be moved: it does not start in the old
  one, and where it starts behind the begin of the scratch, no
  whole byte of the scratch is behind it.
-/
structure HdrMovable (s : InflStream) (S : Nat) : Prop where
  behind :
    s.inHdrBits ≤ s.hdrStartTotalBits + s.save.scratchIb
  last : s.HdrFirst ∨ S ≤ s.hdrAt / 8 + s.hdrLen
  room : s.hdrLen ≤ zedcTreeLen

/- The stream with the bytes of the new header moved. -/
def InflStream.withTree
    (T S : Nat) (s : InflStream) : InflStream :=
  { s with
    save :=
      { s.save with
        tree :=
          s.save.tree.store 0
            (((dataArea s.save.tree s.nextIn T S).drop
              (s.hdrAt / 8)).take s.hdrLen)
        hdrIb := s.hdrAt % 8
        treeBits := s.asv.outHdrBits
        padBits :=
          padBitsFor (s.hdrAt % 8) s.asv.outHdrBits } }

theorem Area.hdrBits_lt
    {s : InflStream}
    {T S : Nat}
    (hArea : Area s T S) :
    s.inHdrBits ≤ 4096 := by
  have hFits := hArea.fits
  have hBits := hArea.hdrBits
  unfold zedcTreeLen at hFits
  omega

theorem HdrInside.hdrOffs
    {s : InflStream}
    {T S : Nat}
    (hArea : Area s T S)
    (hIn : HdrInside s)
    (hBehind :
      s.inHdrBits ≤ s.hdrStartTotalBits + s.save.scratchIb) :
    s.hdrOffs = s.hdrAt := by
  have hFits := hIn.fits
  have hAvail := hArea.availIn
  have hScratch := hArea.scratch
  have hRoom := hArea.fits
  have hIb := hArea.ib
  unfold zedcTreeLen at hRoom
  unfold zedcInflAvailInMax at hAvail
  have hBits := hArea.hdrBits_lt
  unfold InflStream.hdrOffs InflStream.hdrAt
  by_cases hLe : s.inHdrBits ≤ s.hdrStartTotalBits
  · rw [wrapSub_of_le hLe (by omega)]
    omega
  · rw [wrapSub_of_lt (by omega) (by omega)]
    omega

/- The header ends inside the data area. -/
theorem HdrInside.hdrEnd
    {s : InflStream}
    {T S : Nat}
    (hArea : Area s T S)
    (hIn : HdrInside s)
    (hBehind :
      s.inHdrBits ≤ s.hdrStartTotalBits + s.save.scratchIb) :
    s.hdrAt / 8 + s.hdrLen ≤ S + s.availIn := by
  have hFits := hIn.fits
  have hScratch := hArea.scratch
  unfold InflStream.hdrLen InflStream.hdrAt
  omega

theorem InflStream.treeCopy_eq
    {s : InflStream}
    {T S : Nat}
    (hArea : Area s T S) :
    s.treeCopy =
      if s.HdrFirst then
        if (s.asv.outHdrBits + s.hdrOffs % 8 + 7) / 8 > S then
          (S, (s.asv.outHdrBits + s.hdrOffs % 8 + 7) / 8 - S,
            ((s.hdrOffs / 8 : Nat) : Int) - S + S)
        else (0, 0, ((s.hdrOffs / 8 : Nat) : Int) - S)
      else
        (0, (s.asv.outHdrBits + s.hdrOffs % 8 + 7) / 8,
          ((s.hdrOffs / 8 : Nat) : Int) - S) := by
  have hFits := hArea.fits
  unfold zedcTreeLen at hFits
  have hSmall : s.hdrOffs < 2 ^ 64 := Nat.mod_lt _ (by decide)
  unfold InflStream.treeCopy InflStream.HdrFirst
  simp only [hArea.inScratchBytes]
  rw [asSigned_wrapSub (by omega) (by omega)]

/- A header before the data area makes the copy a fault. -/
theorem extractNewTree_before
    {s : InflStream}
    {T S : Nat}
    (hArea : Area s T S)
    (hIn : HdrInside s)
    (hBefore :
      ¬ s.inHdrBits ≤
        s.hdrStartTotalBits + s.save.scratchIb) :
    extractNewTree s = none := by
  have hSome := hIn.some
  have hBits := hArea.hdrBits_lt
  have hFits := hArea.fits
  have hAvail := hArea.availIn
  unfold zedcTreeLen at hFits
  unfold zedcInflAvailInMax InflStream.availIn at hAvail
  have hHuge : 2 ^ 60 ≤ s.hdrOffs / 8 := by
    unfold InflStream.hdrOffs
    rw [wrapSub_of_lt (by omega) (by omega)]
    omega
  have hNotFirst : ¬ s.HdrFirst := by
    unfold InflStream.HdrFirst
    omega
  unfold extractNewTree
  rw [InflStream.treeCopy_eq hArea, if_neg hNotFirst]
  simp only
  unfold copyBehindTree copyFromInput
  rw [if_neg (by omega), if_neg (by omega),
    if_pos (by omega)]

/- A header at the begin of the scratch is left there. -/
theorem extractNewTree_first
    {s : InflStream}
    {T S : Nat}
    (hArea : Area s T S)
    (hIn : HdrInside s)
    (hFirst : s.HdrFirst) :
    extractNewTree s =
      if s.hdrLen > zedcTreeLen then none
      else some (s.withTree T S) := by
  have hZero := hArea.noHdr hFirst.2
  have hLow : s.hdrAt = s.save.scratchIb := by
    unfold InflStream.hdrAt
    rw [hFirst.1, hFirst.2]
    omega
  have hIb := hArea.ib
  have hFits := hArea.fits
  have hBehind :
      s.inHdrBits ≤
        s.hdrStartTotalBits + s.save.scratchIb := by
    rw [hFirst.2]
    exact Nat.zero_le _
  have hEnd := hIn.hdrEnd hArea hBehind
  have hStart : s.hdrAt / 8 = 0 := by omega
  unfold extractNewTree InflStream.withTree
  rw [InflStream.treeCopy_eq hArea, if_pos hFirst,
    hIn.hdrOffs hArea hBehind, ← InflStream.hdrLen, hStart]
  rw [hStart, Nat.zero_add] at hEnd
  by_cases hLong : s.hdrLen > S
  · rw [if_pos hLong]
    simp only
    have hCopy :
        copyBehindTree s S (s.hdrLen - S) ((S : Int) - S) =
          _ :=
      copyBehindTree_eq hArea (by omega) (by omega)
    have hOffs :
        ((0 : Nat) : Int) - S + S = (S : Int) - S := by omega
    rw [hOffs, hCopy]
    by_cases hRoom : s.hdrLen > zedcTreeLen
    · rw [if_pos ⟨by omega, by omega⟩, if_pos hRoom]
    · rw [if_neg (by omega), if_neg hRoom]
      have hJoin := ByteMem.store_store_append s.save.tree 0
        (s.save.tree.window 0 S)
        (s.nextIn.take (s.hdrLen - S))
      rw [ByteMem.store_window_self, ByteMem.length_window,
        Nat.zero_add] at hJoin
      have hBehindScratch :
          (dataArea s.save.tree s.nextIn T S).drop S =
            s.nextIn := by
        unfold dataArea
        exact List.drop_left' (by simp)
      have hWhole :
          ((dataArea s.save.tree s.nextIn T S).drop 0).take
              s.hdrLen =
            s.save.tree.window 0 S ++
              s.nextIn.take (s.hdrLen - S) := by
        unfold dataArea
        rw [List.drop_zero, List.take_append, hZero,
          List.take_of_length_le (by simp; omega)]
        simp
      rw [hBehindScratch, hJoin, hWhole]
  · rw [if_neg hLong, if_neg (by omega)]
    have hSame :
        ((dataArea s.save.tree s.nextIn T S).drop 0).take
            s.hdrLen =
          s.save.tree.window 0 s.hdrLen := by
      unfold dataArea
      rw [List.drop_zero,
        List.take_append_of_le_length (by simp; omega),
        ByteMem.take_window, hZero,
        Nat.min_eq_left (by omega)]
    rw [hSame, ByteMem.store_window_self]
    rfl

/- Any other header is copied to the begin of the area. -/
theorem extractNewTree_moved
    {s : InflStream}
    {T S : Nat}
    (hArea : Area s T S)
    (hIn : HdrInside s)
    (hFirst : ¬ s.HdrFirst)
    (hBehind :
      s.inHdrBits ≤
        s.hdrStartTotalBits + s.save.scratchIb) :
    extractNewTree s =
      if s.hdrAt / 8 + s.hdrLen < S ∨
          s.hdrLen > zedcTreeLen then
        none
      else some (s.withTree T S) := by
  have hSome := hIn.some
  have hEnd := hIn.hdrEnd hArea hBehind
  have hNonzero : s.hdrLen ≠ 0 := by
    unfold InflStream.hdrLen
    omega
  unfold extractNewTree InflStream.withTree
  rw [InflStream.treeCopy_eq hArea, if_neg hFirst,
    hIn.hdrOffs hArea hBehind, ← InflStream.hdrLen]
  simp only
  by_cases hInside : s.hdrAt / 8 + s.hdrLen < S
  · rw [copyBehindTree_fault hArea hNonzero hInside,
      if_pos (Or.inl hInside)]
  · rw [copyBehindTree_eq hArea (fun _ => hEnd) (by omega)]
    by_cases hRoom : s.hdrLen > zedcTreeLen
    · rw [if_pos ⟨hNonzero, by omega⟩, if_pos (Or.inr hRoom)]
    · rw [if_neg (by omega), if_neg (by omega)]

/-
  `extract_new_tree` moves the header, or it is a fault.
-/
theorem extractNewTree_eq
    {s : InflStream}
    {T S : Nat}
    (hArea : Area s T S)
    (hIn : HdrInside s) :
    (HdrMovable s S →
      extractNewTree s = some (s.withTree T S)) ∧
    (¬ HdrMovable s S → extractNewTree s = none) := by
  by_cases hBehind :
      s.inHdrBits ≤ s.hdrStartTotalBits + s.save.scratchIb
  · by_cases hFirst : s.HdrFirst
    · rw [extractNewTree_first hArea hIn hFirst]
      constructor
      · intro hMove
        rw [if_neg (Nat.not_lt.mpr hMove.room)]
      · intro hStuck
        rw [if_pos]
        by_contra hRoom
        exact hStuck
          ⟨hBehind, Or.inl hFirst, Nat.not_lt.mp hRoom⟩
    · rw [extractNewTree_moved hArea hIn hFirst hBehind]
      constructor
      · intro hMove
        have hLast := hMove.last.resolve_left hFirst
        have hRoom := hMove.room
        rw [if_neg (by omega)]
      · intro hStuck
        rw [if_pos]
        by_contra hFree
        exact hStuck
          ⟨hBehind, Or.inr (by omega), by omega⟩
  · constructor
    · exact fun hMove => absurd hMove.behind hBehind
    · exact fun _ => extractNewTree_before hArea hIn hBehind

------------------------------------------------------------
-- The New Scratch
------------------------------------------------------------

/- The bits processed, from the first bit offered on. -/
def InflStream.processed (s : InflStream) : Nat :=
  s.asv.inpProcessed * 8 + s.asv.procBits

/- The header was processed, and only what was offered. -/
structure ProcInside (s : InflStream) : Prop where
  hdr : s.inHdrBits ≤ s.processed
  fits :
    s.processed ≤
      s.inHdrBits + s.save.scratchBits + 8 * s.availIn

/- Where processing stopped in the data area, in bits. -/
def InflStream.stopAt (s : InflStream) : Nat :=
  s.processed + s.save.scratchIb - s.inHdrBits

/-
  The bytes kept in the scratch: all that are left, or with a
  full output buffer those of the scratch and a partial one.
-/
def InflStream.keepLen (S : Nat) (s : InflStream) : Nat :=
  if s.availOut > s.asv.outpReturned then
    S + s.availIn - s.stopAt / 8
  else max S ((s.stopAt + 7) / 8) - s.stopAt / 8

/- The stream with the kept bytes behind the tree. -/
def InflStream.withScratch
    (T S : Nat) (s : InflStream) : InflStream :=
  { s with
    inpDataOffs := s.stopAt / 8 + s.keepLen S - S
    save :=
      { s.save with
        tree :=
          s.save.tree.store s.save.scratchTarget
            (((dataArea s.save.tree s.nextIn T S).drop
              (s.stopAt / 8)).take (s.keepLen S))
        scratchIb := s.stopAt % 8
        scratchBits := 8 * s.keepLen S - s.stopAt % 8 } }

theorem ProcInside.scratchOffs
    {s : InflStream}
    {T S : Nat}
    (hArea : Area s T S)
    (hProc : ProcInside s) :
    s.scratchOffs = s.stopAt ∧
      s.stopAt ≤ 8 * (S + s.availIn) := by
  have hHdr := hProc.hdr
  have hFits := hProc.fits
  have hAvail := hArea.availIn
  have hScratch := hArea.scratch
  have hRoom := hArea.fits
  have hBits := hArea.hdrBits_lt
  unfold zedcTreeLen at hRoom
  unfold zedcInflAvailInMax at hAvail
  unfold InflStream.scratchOffs InflStream.stopAt
  unfold InflStream.processed at hHdr hFits ⊢
  rw [wrapSub_of_le hHdr (by omega)]
  omega

/- `cnt` and `inp_data_offs` of `scratch_update`. -/
theorem InflStream.scratchTake_eq
    {s : InflStream}
    {T S : Nat}
    (hArea : Area s T S)
    (hProc : ProcInside s) :
    s.scratchTake =
        (s.keepLen S, s.stopAt / 8 + s.keepLen S - S) ∧
      s.scratchSrcOffs = ((s.stopAt / 8 : Nat) : Int) - S ∧
      S ≤ s.stopAt / 8 + s.keepLen S ∧
      s.stopAt / 8 + s.keepLen S ≤ S + s.availIn ∧
      (s.keepLen S = 0 → s.stopAt % 8 = 0) := by
  rcases hProc.scratchOffs hArea with ⟨hOffs, hStop⟩
  have hAvail := hArea.availIn
  have hRoom := hArea.fits
  unfold zedcTreeLen at hRoom
  unfold zedcInflAvailInMax at hAvail
  have hSrc :
      s.scratchSrcOffs = ((s.stopAt / 8 : Nat) : Int) - S := by
    unfold InflStream.scratchSrcOffs
    rw [hArea.inScratchBytes, hOffs,
      asSigned_wrapSub (by omega) (by omega)]
  have hKeep :
      s.scratchKeep =
        (max S ((s.stopAt + 7) / 8) - s.stopAt / 8,
          max S ((s.stopAt + 7) / 8) - S) := by
    unfold InflStream.scratchKeep
    rw [hSrc, hArea.inScratchBytes, hOffs]
    by_cases hIn : S ≤ s.stopAt / 8
    · rw [if_pos (by omega)]
      split <;> simp only [Prod.mk.injEq] <;> omega
    · rw [if_neg (by omega),
        wrapSub_of_le (by omega) (by omega)]
      simp only [Prod.mk.injEq]
      omega
  have hTake :
      s.scratchTake =
        (s.keepLen S, s.stopAt / 8 + s.keepLen S - S) := by
    unfold InflStream.scratchTake InflStream.keepLen
    rw [hKeep]
    simp only
    split
    · rw [wrapSub_of_le (by omega) (by omega)]
      simp only [Prod.mk.injEq]
      omega
    · simp only [Prod.mk.injEq, true_and]
      omega
  refine ⟨hTake, hSrc, ?_, ?_, ?_⟩
  all_goals
    unfold InflStream.keepLen
    split <;> omega

/-
  `scratch_update` moves what is left, or there is no room
  for it, which is a fault.
-/
theorem scratchUpdate_eq
    {s : InflStream}
    {T S : Nat}
    (hArea : Area s T S)
    (hProc : ProcInside s) :
    scratchUpdate s =
      if s.keepLen S ≠ 0 ∧
          s.save.scratchTarget + s.keepLen S > zedcTreeLen then
        none
      else some (s.withScratch T S) := by
  rcases InflStream.scratchTake_eq hArea hProc with
    ⟨hTake, hSrc, hBack, hEnd, hNone⟩
  rcases hProc.scratchOffs hArea with ⟨hOffs, _⟩
  unfold scratchUpdate InflStream.withScratch
  rw [hTake]
  simp only
  rw [hSrc, copyBehindTree_eq hArea (fun _ => hEnd)
    (fun _ => hBack), hOffs]
  by_cases hRoom :
      s.keepLen S ≠ 0 ∧
        s.save.scratchTarget + s.keepLen S > zedcTreeLen
  · rw [if_pos hRoom, if_pos hRoom]
  · rw [if_neg hRoom, if_neg hRoom]
    have hBits :
        wrapSub 32 (s.keepLen S * 8 % 2 ^ 32)
            (s.stopAt % 8) =
          8 * s.keepLen S - s.stopAt % 8 := by
      unfold zedcTreeLen at hRoom
      rw [Nat.mod_eq_of_lt (by omega),
        wrapSub_of_le (by omega) (by omega)]
      omega
    rw [hBits]

end Zedc
