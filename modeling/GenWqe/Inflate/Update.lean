import GenWqe.Inflate.Scratch

/-
  What the save area means, and what its update makes of it:
  the header in front, and behind it the bits that were taken
  from the input but not yet processed.

  Key definitions include:
    * `SaveOk`
    * `SaveArea.header` and `SaveArea.scratch`
    * `InflStream.pending`

  Main results:
    * `withTree_spec`
    * `withScratch_spec`
-/

------------------------------------------------------------
-- The Meaning of the Save Area
------------------------------------------------------------

namespace Zedc

open Bits

/- The header part: it fills up whole 64-bit words. -/
structure HdrOk (a : SaveArea) : Prop where
  hdrIb : a.hdrIb < 8
  padBits : a.padBits < 64
  aligned : (a.hdrIb + a.treeBits + a.padBits) % 64 = 0
  empty : a.treeBits = 0 → a.hdrIb = 0
  treeBits : a.treeBits < 2 ^ 16

/- The scratch part fills up whole bytes, and all fits. -/
structure SaveOk (a : SaveArea) : Prop extends HdrOk a where
  scratchIb : a.scratchIb < 8
  whole : (a.scratchIb + a.scratchBits) % 8 = 0
  fits :
    a.hdrIb + a.treeBits + a.padBits + a.scratchIb +
      a.scratchBits ≤ 8 * zedcTreeLen

/- The offset of the scratch. -/
def SaveArea.scratchStart (a : SaveArea) : Nat :=
  (a.hdrIb + a.treeBits + a.padBits) / 8

/- The length of the scratch in bytes. -/
def SaveArea.scratchLen (a : SaveArea) : Nat :=
  (a.scratchIb + a.scratchBits) / 8

/- The bits of the header. -/
def SaveArea.header (a : SaveArea) : List Bool :=
  ((bitsOf
    (a.tree.window 0 ((a.hdrIb + a.treeBits + 7) / 8))).drop
      a.hdrIb).take a.treeBits

/- The bits in the scratch. -/
def SaveArea.scratch (a : SaveArea) : List Bool :=
  (bitsOf (a.tree.window a.scratchStart a.scratchLen)).drop
    a.scratchIb

/- The bits taken or offered that are not yet processed. -/
def InflStream.pending (s : InflStream) : List Bool :=
  s.save.scratch ++ bitsOf (s.nextIn.drop s.inpDataOffs)

/- The target of a copy is where the scratch starts. -/
theorem HdrOk.scratchTarget
    {a : SaveArea} (hOk : HdrOk a) :
    a.scratchTarget = a.scratchStart := by
  have hPad := hOk.padBits
  have hAligned := hOk.aligned
  unfold SaveArea.scratchTarget SaveArea.scratchStart
  omega

/- Without a header the scratch is at the begin. -/
theorem HdrOk.scratchStart_zero
    {a : SaveArea}
    (hOk : HdrOk a)
    (hNone : a.treeBits = 0) :
    a.scratchStart = 0 := by
  have hIb := hOk.empty hNone
  have hPad := hOk.padBits
  have hAligned := hOk.aligned
  unfold SaveArea.scratchStart
  omega

theorem SaveArea.length_header
    (a : SaveArea) : a.header.length = a.treeBits := by
  simp only [header, List.length_take, List.length_drop,
    length_bitsOf, ByteMem.length_window]
  omega

theorem SaveOk.length_scratch
    {a : SaveArea} (hOk : SaveOk a) :
    a.scratch.length = a.scratchBits := by
  have hWhole := hOk.whole
  simp only [SaveArea.scratch, List.length_drop,
    length_bitsOf, ByteMem.length_window,
    SaveArea.scratchLen]
  omega

/- A change behind the header leaves the header alone. -/
theorem SaveArea.header_congr
    {a b : SaveArea}
    (hHdrIb : b.hdrIb = a.hdrIb)
    (hTreeBits : b.treeBits = a.treeBits)
    (hTree : ∀ i, 8 * i < a.hdrIb + a.treeBits →
      b.tree i = a.tree i) :
    b.header = a.header := by
  unfold header
  rw [hHdrIb, hTreeBits]
  have hWindow :
      b.tree.window 0 ((a.hdrIb + a.treeBits + 7) / 8) =
        a.tree.window 0 ((a.hdrIb + a.treeBits + 7) / 8) :=
    ByteMem.window_congr
      (fun i _ hi => hTree i (by omega))
  rw [hWindow]

------------------------------------------------------------
-- The Header Moved
------------------------------------------------------------

theorem padBitsFor_lt (hdrIb treeBits : Nat) :
    padBitsFor hdrIb treeBits < 64 := by
  unfold padBitsFor
  split <;> omega

/- The bits of a piece of the data area. -/
theorem bits_of_piece
    (bs : List UInt8) (off n : Nat) :
    ((bitsOf
      ((bs.drop (off / 8)).take
        ((n + off % 8 + 7) / 8))).drop (off % 8)).take n =
      ((bitsOf bs).drop off).take n := by
  rw [bitsOf_take, bitsOf_drop, List.drop_take,
    List.drop_drop, List.take_take]
  congr 1
  · omega
  · congr 1
    omega

/-
  The moved header is the one that was offered, and what comes
  behind it in the data area is still where it was.
-/
theorem withTree_spec
    {s : InflStream}
    {T S : Nat}
    (hArea : Area s T S)
    (hIn : HdrInside s)
    (hMove : HdrMovable s S)
    (hSmall : s.asv.outHdrBits < 2 ^ 16) :
    HdrOk (s.withTree T S).save ∧
    (s.withTree T S).save.header =
      ((bitsOf (dataArea s.save.tree s.nextIn T S)).drop
        s.hdrAt).take s.asv.outHdrBits ∧
    (∀ k, s.hdrAt + s.asv.outHdrBits ≤ 8 * k + 7 →
      (dataArea (s.withTree T S).save.tree s.nextIn T S).drop
          k =
        (dataArea s.save.tree s.nextIn T S).drop k) := by
  have hSome := hIn.some
  have hEnd := hIn.hdrEnd hArea hMove.behind
  have hLen :
      (((dataArea s.save.tree s.nextIn T S).drop
        (s.hdrAt / 8)).take s.hdrLen).length = s.hdrLen := by
    rw [List.length_take, List.length_drop, length_dataArea]
    unfold InflStream.availIn at hEnd
    omega
  refine ⟨?_, ?_, ?_⟩
  · refine ⟨?_, padBitsFor_lt _ _, ?_, ?_, hSmall⟩
    · exact Nat.mod_lt _ (by decide)
    · simp only [InflStream.withTree, padBitsFor]
      rw [if_pos hSome]
      omega
    · intro hNone
      exact absurd hNone (Nat.pos_iff_ne_zero.mp hSome)
  · have hRound :
        (s.hdrAt % 8 + s.asv.outHdrBits + 7) / 8 =
          s.hdrLen := by
      unfold InflStream.hdrLen
      omega
    unfold SaveArea.header
    simp only [InflStream.withTree]
    rw [hRound]
    have hRead :=
      ByteMem.window_store_same s.save.tree 0
        (((dataArea s.save.tree s.nextIn T S).drop
          (s.hdrAt / 8)).take s.hdrLen)
    rw [hLen] at hRead
    rw [hRead]
    exact bits_of_piece _ _ _
  · intro k hk
    have hTree :
        (s.withTree T S).save.tree =
          s.save.tree.store 0
            (((dataArea s.save.tree s.nextIn T S).drop
              (s.hdrAt / 8)).take s.hdrLen) := rfl
    have hStay :
        ∀ i, T + k ≤ i → i < T + S →
          (s.withTree T S).save.tree i = s.save.tree i := by
      intro i hLow hHigh
      rw [hTree]
      by_cases hOut : s.hdrLen ≤ i
      · exact ByteMem.store_outside _ (by omega)
      · -- the last byte of a header that has not moved
        have hStart : T = 0 ∧ s.hdrAt / 8 = 0 := by
          unfold InflStream.hdrLen at hOut
          omega
        have hTake : i < s.hdrLen := by omega
        have hDrop : i < S := by omega
        rw [ByteMem.store_inside _ (Nat.zero_le i) (by omega),
          List.getD_eq_getElem?_getD, Nat.sub_zero,
          List.getElem?_take_of_lt hTake, hStart.2,
          List.drop_zero]
        unfold dataArea
        rw [List.getElem?_append_left (by simpa using hDrop),
          ByteMem.window_getElem?, if_pos hDrop, hStart.1,
          Nat.zero_add]
        rfl
    have hWindow :
        (s.withTree T S).save.tree.window (T + k) (S - k) =
          s.save.tree.window (T + k) (S - k) :=
      ByteMem.window_congr
        (fun i hLow hHigh => hStay i hLow (by omega))
    unfold dataArea
    rw [List.drop_append, List.drop_append,
      ByteMem.drop_window, ByteMem.drop_window, hWindow,
      ByteMem.length_window, ByteMem.length_window]

------------------------------------------------------------
-- The Scratch Moved
------------------------------------------------------------

/-
  The kept scratch and the rest of the input are what was not
  processed; the header in front of it stays.
-/
theorem withScratch_spec
    {s : InflStream}
    {T S : Nat}
    (hArea : Area s T S)
    (hProc : ProcInside s)
    (hHdr : HdrOk s.save)
    (hTarget : s.save.scratchTarget ≤ zedcTreeLen)
    (hRoom :
      ¬ (s.keepLen S ≠ 0 ∧
        s.save.scratchTarget + s.keepLen S >
          zedcTreeLen)) :
    SaveOk (s.withScratch T S).save ∧
    (s.withScratch T S).save.header = s.save.header ∧
    (s.withScratch T S).pending =
      (bitsOf (dataArea s.save.tree s.nextIn T S)).drop
        s.stopAt ∧
    (s.withScratch T S).inpDataOffs ≤ s.availIn := by
  rcases InflStream.scratchTake_eq hArea hProc with
    ⟨_, _, hBack, hEnd, hNone⟩
  have hStart := hHdr.scratchTarget
  have hPad := hHdr.padBits
  have hAligned := hHdr.aligned
  have hLen :
      (((dataArea s.save.tree s.nextIn T S).drop
        (s.stopAt / 8)).take (s.keepLen S)).length =
          s.keepLen S := by
    rw [List.length_take, List.length_drop, length_dataArea]
    unfold InflStream.availIn at hEnd
    omega
  refine ⟨⟨⟨hHdr.hdrIb, hPad, hAligned, hHdr.empty,
    hHdr.treeBits⟩, ?_, ?_, ?_⟩, ?_, ?_, ?_⟩
  · exact Nat.mod_lt _ (by decide)
  · simp only [InflStream.withScratch]
    omega
  · simp only [InflStream.withScratch]
    unfold SaveArea.scratchStart at hStart
    omega
  · have hBefore :
        ∀ i, 8 * i < s.save.hdrIb + s.save.treeBits →
          (s.withScratch T S).save.tree i = s.save.tree i := by
      intro i hi
      apply ByteMem.store_outside
      left
      rw [hStart]
      unfold SaveArea.scratchStart
      omega
    exact SaveArea.header_congr rfl rfl hBefore
  · have hScratchLen :
        (s.withScratch T S).save.scratchLen =
          s.keepLen S := by
      simp only [InflStream.withScratch, SaveArea.scratchLen]
      omega
    have hSameStart :
        (s.withScratch T S).save.scratchStart =
          s.save.scratchTarget := by
      rw [hStart]
      rfl
    have hRead :=
      ByteMem.window_store_same s.save.tree
        s.save.scratchTarget
        (((dataArea s.save.tree s.nextIn T S).drop
          (s.stopAt / 8)).take (s.keepLen S))
    rw [hLen] at hRead
    have hRest :
        s.nextIn.drop (s.stopAt / 8 + s.keepLen S - S) =
          ((dataArea s.save.tree s.nextIn T S).drop
            (s.stopAt / 8)).drop (s.keepLen S) := by
      unfold dataArea
      have hPast :
          (s.save.tree.window T S).drop
              (s.stopAt / 8 + s.keepLen S) = [] :=
        List.drop_eq_nil_of_le (by simpa using hBack)
      rw [List.drop_drop, List.drop_append, hPast,
        ByteMem.length_window, List.nil_append]
    unfold InflStream.pending SaveArea.scratch
    rw [hScratchLen, hSameStart]
    simp only [InflStream.withScratch]
    rw [hRead, hRest, ← List.drop_append_of_le_length
      (by rw [length_bitsOf, hLen]; omega),
      ← bitsOf_append, List.take_append_drop, bitsOf_drop,
      List.drop_drop]
    congr 1
    omega
  · simp only [InflStream.withScratch]
    omega

------------------------------------------------------------
-- The Offered Bits
------------------------------------------------------------

/- A stream whose save area and input a DDCB was offered. -/
structure Offered (s : InflStream) : Prop where
  save : SaveOk s.save
  len :
    s.inHdrScratchLen =
      s.save.scratchStart + s.save.scratchLen
  inHdrBits : s.inHdrBits = s.save.treeBits
  preScratchBits :
    s.preScratchBits = s.save.treeBits + s.save.scratchBits
  availIn : s.availIn ≤ zedcInflAvailInMax
  inpDataOffs : s.inpDataOffs = 0

/- Header, scratch and input: the bits a DDCB was offered. -/
def InflStream.offered (s : InflStream) : List Bool :=
  s.save.header ++ s.save.scratch ++ bitsOf s.nextIn

/- The data area of a stream. -/
def InflStream.data (s : InflStream) : List UInt8 :=
  dataArea s.save.tree s.nextIn s.save.scratchStart
    s.save.scratchLen

theorem Offered.area
    {s : InflStream} (hOff : Offered s) :
    Area s s.save.scratchStart s.save.scratchLen := by
  have hFits := hOff.save.fits
  have hWhole := hOff.save.whole
  have hAligned := hOff.save.aligned
  refine ⟨hOff.len, ?_, ?_, hOff.save.scratchIb, ?_, ?_,
    hOff.availIn⟩
  · unfold SaveArea.scratchStart SaveArea.scratchLen
    omega
  · unfold SaveArea.scratchLen
    omega
  · rw [hOff.inHdrBits]
    unfold SaveArea.scratchStart
    omega
  · intro hNone
    rw [hOff.inHdrBits] at hNone
    exact hOff.save.scratchStart_zero hNone

/- Behind the header, the offered bits are the data area. -/
theorem Offered.drop_offered
    {s : InflStream}
    {n : Nat}
    (hOff : Offered s)
    (hBehind : s.inHdrBits ≤ n) :
    s.offered.drop n =
      (bitsOf s.data).drop
        (n + s.save.scratchIb - s.inHdrBits) := by
  have hArea := hOff.area
  have hIb := hArea.ib
  have hScratch := hArea.scratch
  have hHeader := s.save.length_header
  rw [← hOff.inHdrBits] at hHeader
  have hData :
      (bitsOf s.data).drop s.save.scratchIb =
        s.save.scratch ++ bitsOf s.nextIn := by
    unfold InflStream.data dataArea SaveArea.scratch
    rw [bitsOf_append]
    by_cases hEmpty : s.save.scratchLen = 0
    · have hNoIb : s.save.scratchIb = 0 := by omega
      simp [hEmpty, hNoIb]
    · exact List.drop_append_of_le_length (by simp; omega)
  unfold InflStream.offered
  rw [List.append_assoc, List.drop_append, hHeader,
    List.drop_eq_nil_of_le (by omega), List.nil_append,
    ← hData, List.drop_drop]
  congr 1
  omega

/- What is pending is what was not the header. -/
theorem Offered.pending
    {s : InflStream} (hOff : Offered s) :
    s.pending = s.offered.drop s.inHdrBits := by
  have hHeader := s.save.length_header
  rw [← hOff.inHdrBits] at hHeader
  unfold InflStream.pending InflStream.offered
  rw [hOff.inpDataOffs, List.drop_zero, List.append_assoc,
    List.drop_left' hHeader]

------------------------------------------------------------
-- Setting Up the Tree
------------------------------------------------------------

/- The stream with a new header moved, if there is one. -/
def InflStream.treeReady
    (T S : Nat) (s : InflStream) : InflStream :=
  if s.newHeader then s.withTree T S else s

/- The kept bytes fit behind the tree. -/
def InflStream.HasRoom (S : Nat) (s : InflStream) : Prop :=
  ¬ (s.keepLen S ≠ 0 ∧
    s.save.scratchTarget + s.keepLen S > zedcTreeLen)

theorem Area.treeReady
    {s : InflStream}
    {T S : Nat}
    (hArea : Area s T S) :
    Area (s.treeReady T S) T S := by
  unfold InflStream.treeReady
  split
  · exact ⟨hArea.len, hArea.fits, hArea.scratch, hArea.ib,
      hArea.hdrBits, hArea.noHdr, hArea.availIn⟩
  · exact hArea

theorem ProcInside.treeReady
    {s : InflStream}
    (T S : Nat)
    (hProc : ProcInside s) :
    ProcInside (s.treeReady T S) := by
  unfold InflStream.treeReady
  split
  · exact ⟨hProc.hdr, hProc.fits⟩
  · exact hProc

/-
  Setting up the tree moves header and scratch; it is a fault
  where the header cannot be moved or the rest does not fit.
-/
theorem setupTreeNew_eq_some
    {s s' : InflStream}
    {T S : Nat}
    (hArea : Area s T S)
    (hProc : ProcInside s)
    (hIn : s.newHeader = true → HdrInside s) :
    setupTreeNew s = some s' ↔
      (s.newHeader = true → HdrMovable s S) ∧
      (s.treeReady T S).HasRoom S ∧
      s' = (s.treeReady T S).withScratch T S := by
  have hUpdate := scratchUpdate_eq hArea.treeReady
    (hProc.treeReady T S)
  unfold setupTreeNew InflStream.HasRoom
  unfold InflStream.treeReady at hUpdate ⊢
  by_cases hNew : s.newHeader = true
  · rw [if_pos hNew] at hUpdate
    simp only [if_pos hNew]
    rcases extractNewTree_eq hArea (hIn hNew) with
      ⟨hMoved, hStuck⟩
    by_cases hMove : HdrMovable s S
    · rw [hMoved hMove]
      simp only [hUpdate]
      split
      · rename_i hNo
        simp [hNo]
      · rename_i hYes
        simp only [Option.some.injEq]
        exact ⟨fun hEq => ⟨fun _ => hMove, hYes, hEq.symm⟩,
          fun hAll => hAll.2.2.symm⟩
    · rw [hStuck hMove]
      simp [hNew, hMove]
  · rw [if_neg hNew] at hUpdate
    simp only [if_neg hNew, hUpdate]
    split
    · rename_i hNo
      simp [hNo]
    · rename_i hYes
      simp only [Option.some.injEq]
      exact ⟨fun hEq =>
          ⟨fun hAbs => absurd hAbs hNew, hYes, hEq.symm⟩,
        fun hAll => hAll.2.2.symm⟩

------------------------------------------------------------
-- After an End of Block
------------------------------------------------------------

/-
  The results are those of a card that keeps to what it was
  offered: a new header ends where processing stopped or
  before.
-/
structure AsvHonest (s : InflStream) : Prop where
  proc : ProcInside s
  outHdrBits : s.asv.outHdrBits < 2 ^ 16
  hdr :
    s.newHeader = true →
      s.hdrStartTotalBits + s.asv.outHdrBits ≤ s.processed

/- A header was found for the block processing stopped in. -/
def InflStream.foundHeader (s : InflStream) : Bool :=
  (setupTreeEob s).newHeader

/- The bits that are moved where that header is. -/
def InflStream.foundBits (s : InflStream) : List Bool :=
  ((bitsOf s.data).drop s.hdrAt).take s.asv.outHdrBits

/- The header that is kept of it. -/
def InflStream.keptHdr (s : InflStream) : List Bool :=
  if s.foundHeader then s.foundBits
  else if passedEob s.asv.inflStat then []
  else s.save.header

/- Its length. -/
def InflStream.stopHdrBits (s : InflStream) : Nat :=
  if s.foundHeader then s.asv.outHdrBits
  else if passedEob s.asv.inflStat then 0
  else s.save.treeBits

/- Only the tree is dropped at an end of block. -/
theorem setupTreeEob_strm (s : InflStream) :
    setupTreeEob s =
      { s with
        save :=
          if passedEob s.asv.inflStat then s.dropTree.save
          else s.save
        asv := (setupTreeEob s).asv } ∧
    (setupTreeEob s).asv =
      { s.asv with
        outHdrBits := (setupTreeEob s).asv.outHdrBits
        outHdrStartBits :=
          (setupTreeEob s).asv.outHdrStartBits } ∧
    (s.foundHeader = true →
      s.newHeader = true ∧
        (setupTreeEob s).asv = s.asv) := by
  unfold InflStream.foundHeader setupTreeEob
  cases passedEob s.asv.inflStat with
  | false => exact ⟨rfl, rfl, fun hNew => ⟨hNew, rfl⟩⟩
  | true =>
      cases reachedEob s.asv.inflStat with
      | false => exact ⟨rfl, rfl, fun hNew => ⟨hNew, rfl⟩⟩
      | true =>
          refine ⟨rfl, rfl, fun hNew => ?_⟩
          simp [InflStream.newHeader] at hNew

/- What an end of block leaves of the save area. -/
structure EobSame (s s₁ : InflStream) : Prop where
  tree : s₁.save.tree = s.save.tree
  scratchIb : s₁.save.scratchIb = s.save.scratchIb
  scratchBits : s₁.save.scratchBits = s.save.scratchBits
  nextIn : s₁.nextIn = s.nextIn
  inHdrBits : s₁.inHdrBits = s.inHdrBits
  processed : s₁.processed = s.processed

theorem setupTreeEob_same (s : InflStream) :
    EobSame s (setupTreeEob s) := by
  rcases setupTreeEob_strm s with ⟨hStrm, hAsv, _⟩
  refine ⟨?_, ?_, ?_, ?_, ?_, ?_⟩
  · rw [hStrm]
    simp only
    split <;> rfl
  · rw [hStrm]
    simp only
    split <;> rfl
  · rw [hStrm]
    simp only
    split <;> rfl
  · rw [hStrm]
  · rw [hStrm]
  · unfold InflStream.processed
    rw [hAsv]

theorem HdrOk.dropTree (s : InflStream) :
    HdrOk s.dropTree.save := by
  constructor <;> simp [InflStream.dropTree]

/- The offered area, without the tree at an end of block. -/
theorem Offered.areaEob
    {s : InflStream} (hOff : Offered s) :
    Area (setupTreeEob s) s.save.scratchStart
        s.save.scratchLen ∧
      HdrOk (setupTreeEob s).save ∧
      (setupTreeEob s).save.scratchTarget ≤ zedcTreeLen ∧
      (setupTreeEob s).save.treeBits =
        (if passedEob s.asv.inflStat then 0
        else s.save.treeBits) := by
  have hArea := hOff.area
  have hStart :
      s.save.scratchTarget ≤ zedcTreeLen := by
    rw [hOff.save.scratchTarget]
    exact (Nat.le_add_right _ _).trans hArea.fits
  rcases setupTreeEob_strm s with ⟨hStrm, _, _⟩
  rw [hStrm]
  cases passedEob s.asv.inflStat with
  | false =>
      exact ⟨⟨hArea.len, hArea.fits, hArea.scratch, hArea.ib,
        hArea.hdrBits, hArea.noHdr, hArea.availIn⟩,
        hOff.save.toHdrOk, hStart, rfl⟩
  | true =>
      exact ⟨⟨hArea.len, hArea.fits, hArea.scratch, hArea.ib,
        hArea.hdrBits, hArea.noHdr, hArea.availIn⟩,
        HdrOk.dropTree s,
        by simp [SaveArea.scratchTarget, InflStream.dropTree],
        rfl⟩

/- The header found was offered. -/
theorem AsvHonest.inside
    {s : InflStream}
    (hHonest : AsvHonest s)
    (hFound : s.foundHeader = true) :
    HdrInside (setupTreeEob s) := by
  have hSame := setupTreeEob_same s
  rcases (setupTreeEob_strm s).2.2 hFound with ⟨hNew, hAsv⟩
  have hEnd := hHonest.hdr hNew
  have hFits := hHonest.proc.fits
  unfold InflStream.hdrStartTotalBits at hEnd
  refine ⟨?_, ?_⟩
  · unfold InflStream.newHeader at hNew
    rw [hAsv]
    simp only [Bool.and_eq_true, decide_eq_true_eq] at hNew
    exact hNew.1
  · unfold InflStream.hdrStartTotalBits InflStream.availIn
    rw [hSame.scratchBits, hAsv, hSame.inHdrBits,
      hSame.nextIn]
    exact hEnd.trans hFits

theorem ProcInside.eob
    {s : InflStream} (hProc : ProcInside s) :
    ProcInside (setupTreeEob s) := by
  have hSame := setupTreeEob_same s
  refine ⟨?_, ?_⟩
  · rw [hSame.processed, hSame.inHdrBits]
    exact hProc.hdr
  · unfold InflStream.availIn
    rw [hSame.processed, hSame.scratchBits,
      hSame.inHdrBits, hSame.nextIn]
    exact hProc.fits

/- The stream with the header found moved. -/
def InflStream.ready (s : InflStream) : InflStream :=
  (setupTreeEob s).treeReady s.save.scratchStart
    s.save.scratchLen

/-
  Moving the header found keeps the data area from where
  processing stopped on.
-/
theorem AsvHonest.treeReady_spec
    {s : InflStream}
    (hOff : Offered s)
    (hHonest : AsvHonest s)
    (hMove : s.foundHeader = true →
      HdrMovable (setupTreeEob s) s.save.scratchLen) :
    HdrOk s.ready.save ∧
    s.ready.save.scratchTarget ≤ zedcTreeLen ∧
    s.ready.save.treeBits = s.stopHdrBits ∧
    (bitsOf
      (dataArea s.ready.save.tree s.ready.nextIn
        s.save.scratchStart s.save.scratchLen)).drop
          s.ready.stopAt = s.offered.drop s.processed ∧
    s.ready.save.header = s.keptHdr := by
  rcases hOff.areaEob with ⟨hArea, hHdr, hTarget, hBits⟩
  have hSame := setupTreeEob_same s
  have hData :
      dataArea (setupTreeEob s).save.tree
          (setupTreeEob s).nextIn s.save.scratchStart
          s.save.scratchLen = s.data := by
    rw [hSame.tree, hSame.nextIn]
    rfl
  have hStop :
      (setupTreeEob s).stopAt =
        s.processed + s.save.scratchIb - s.inHdrBits := by
    unfold InflStream.stopAt
    rw [hSame.processed, hSame.scratchIb, hSame.inHdrBits]
  have hRest := hOff.drop_offered hHonest.proc.hdr
  by_cases hFound : s.foundHeader = true
  · have hReady :
        s.ready =
          (setupTreeEob s).withTree s.save.scratchStart
            s.save.scratchLen := if_pos hFound
    have hIn := hHonest.inside hFound
    rcases (setupTreeEob_strm s).2.2 hFound with ⟨hNew, hAsv⟩
    have hHdrStart :
        (setupTreeEob s).hdrStartTotalBits =
          s.hdrStartTotalBits := by
      unfold InflStream.hdrStartTotalBits
      rw [hAsv]
    have hAt :
        (setupTreeEob s).hdrAt =
          s.hdrStartTotalBits + s.save.scratchIb -
            s.inHdrBits := by
      unfold InflStream.hdrAt
      rw [hHdrStart, hSame.scratchIb, hSame.inHdrBits]
    have hOut :
        (setupTreeEob s).asv.outHdrBits =
          s.asv.outHdrBits := by
      rw [hAsv]
    have hEnd := hHonest.hdr hNew
    have hProc := hHonest.proc.hdr
    have hMoved := hMove hFound
    have hRoom := hMoved.room
    have hLow := hMoved.behind
    rw [hSame.inHdrBits, hHdrStart, hSame.scratchIb] at hLow
    rcases withTree_spec hArea hIn hMoved
        (by rw [hOut]; exact hHonest.outHdrBits) with
      ⟨hOk, hHeader, hKeep⟩
    rw [hData] at hHeader
    have hSameRest :
        (bitsOf
          (dataArea s.ready.save.tree s.ready.nextIn
            s.save.scratchStart s.save.scratchLen)).drop
              s.ready.stopAt =
          (bitsOf s.data).drop (setupTreeEob s).stopAt := by
      have hBytes := hKeep ((setupTreeEob s).stopAt / 8)
        (by rw [hAt, hOut, hStop]; omega)
      rw [hData] at hBytes
      have hReadyStop :
          s.ready.stopAt = (setupTreeEob s).stopAt := by
        rw [hReady]
        rfl
      have hSplit :
          (setupTreeEob s).stopAt =
            8 * ((setupTreeEob s).stopAt / 8) +
              (setupTreeEob s).stopAt % 8 := by
        omega
      rw [hReadyStop, hSplit, ← List.drop_drop,
        ← List.drop_drop, ← bitsOf_drop, ← bitsOf_drop,
        ← hBytes, hReady]
      rfl
    refine ⟨by rw [hReady]; exact hOk, ?_, ?_, ?_, ?_⟩
    · have hLen :
          s.ready.save.scratchTarget =
            ((setupTreeEob s).asv.outHdrBits +
              (setupTreeEob s).hdrAt % 8 + 63) / 64 * 8 := by
        rw [hReady]
        rfl
      rw [hLen]
      unfold InflStream.hdrLen zedcTreeLen at hRoom
      unfold zedcTreeLen
      omega
    · unfold InflStream.stopHdrBits
      rw [if_pos hFound, hReady]
      exact hOut
    · rw [hSameRest, hRest, hStop]
    · unfold InflStream.keptHdr InflStream.foundBits
      rw [if_pos hFound, hReady, hHeader, hAt, hOut]
      rfl
  · have hReady : s.ready = setupTreeEob s := if_neg hFound
    refine ⟨by rw [hReady]; exact hHdr,
      by rw [hReady]; exact hTarget, ?_, ?_, ?_⟩
    · unfold InflStream.stopHdrBits
      rw [if_neg hFound, hReady, hBits]
    · rw [hReady, hData, hRest, hStop]
    · unfold InflStream.keptHdr
      rw [if_neg hFound, hReady]
      cases hPassed : passedEob s.asv.inflStat with
      | false =>
          simp [setupTreeEob, hPassed]
      | true =>
          rw [hPassed] at hBits
          apply List.eq_nil_of_length_eq_zero
          rw [SaveArea.length_header]
          exact hBits

/- What setting up the tree comes to. -/
structure Updated (s s' : InflStream) : Prop where
  save : SaveOk s'.save
  pending : s'.pending = s.offered.drop s.processed
  inpDataOffs : s'.inpDataOffs ≤ s.availIn
  treeBits : s'.save.treeBits = s.stopHdrBits
  header : s'.save.header = s.keptHdr
  strm :
    s' =
      { s with
        save := s'.save
        inpDataOffs := s'.inpDataOffs
        asv := (setupTreeEob s).asv }

/- What `setup_tree` needs in order not to be a fault. -/
structure SaveFits (s : InflStream) : Prop where
  movable :
    s.foundHeader = true →
      HdrMovable (setupTreeEob s) s.save.scratchLen
  room : s.ready.HasRoom s.save.scratchLen

theorem setupTree_some_iff
    {s s' : InflStream}
    (hOff : Offered s)
    (hHonest : AsvHonest s)
    (hMore :
      (passedEob s.asv.inflStat &&
        finalEob s.asv.inflStat) = false) :
    setupTree s = some s' ↔
      SaveFits s ∧
        s' =
          s.ready.withScratch s.save.scratchStart
            s.save.scratchLen := by
  unfold setupTree
  rw [hMore, if_neg (by decide),
    setupTreeNew_eq_some hOff.areaEob.1 hHonest.proc.eob
      hHonest.inside]
  exact ⟨fun ⟨hMove, hRoom, hEq⟩ => ⟨⟨hMove, hRoom⟩, hEq⟩,
    fun ⟨hFits, hEq⟩ => ⟨hFits.movable, hFits.room, hEq⟩⟩

/- Setting up the tree neither loses nor repeats a bit. -/
theorem setupTree_spec
    {s s' : InflStream}
    (hOff : Offered s)
    (hHonest : AsvHonest s)
    (hMore :
      (passedEob s.asv.inflStat &&
        finalEob s.asv.inflStat) = false)
    (hSetup : setupTree s = some s') :
    Updated s s' := by
  rcases (setupTree_some_iff hOff hHonest hMore).mp hSetup
    with ⟨hFits, hEq⟩
  rcases hHonest.treeReady_spec hOff hFits.movable with
    ⟨hHdr, hTarget, hBits, hRest, hHeader⟩
  rcases withScratch_spec hOff.areaEob.1.treeReady
      (hHonest.proc.eob.treeReady _ _) hHdr hTarget
      hFits.room with
    ⟨hSave, hSameHeader, hPending, hOffs⟩
  have hStrm :
      s.ready =
        { setupTreeEob s with save := s.ready.save } := by
    unfold InflStream.ready InflStream.treeReady
    split <;> rfl
  have hAvail : s.ready.availIn = s.availIn := by
    unfold InflStream.availIn
    rw [hStrm, (setupTreeEob_strm s).1]
  subst hEq
  refine ⟨hSave, hPending.trans hRest, ?_, hBits, ?_, ?_⟩
  · rw [← hAvail]
    exact hOffs
  · exact hSameHeader.trans hHeader
  · have hScratch :
        s.ready.withScratch s.save.scratchStart
            s.save.scratchLen =
          { s.ready with
            save :=
              (s.ready.withScratch s.save.scratchStart
                s.save.scratchLen).save
            inpDataOffs :=
              (s.ready.withScratch s.save.scratchStart
                s.save.scratchLen).inpDataOffs } := rfl
    generalize s.ready.withScratch s.save.scratchStart
      s.save.scratchLen = s' at hScratch ⊢
    rw [hScratch, hStrm, (setupTreeEob_strm s).1]

------------------------------------------------------------
-- A Cut Stored Block
------------------------------------------------------------

@[simp] theorem length_storedHeader
    (bfinal : Bool) (len : UInt16) :
    (storedHeader bfinal len).length = 5 := rfl

/-
  The made-up header takes the place of the one of the stored
  block, which filled up one 64-bit word as well.
-/
theorem restoreStored_spec
    {s : InflStream}
    (hSave : SaveOk s.save)
    (hSome : 0 < s.save.treeBits)
    (hWord : s.save.treeBits ≤ 57)
    (hCut : s.cutStored = true) :
    SaveOk (restoreStored s).save ∧
    (restoreStored s).save.header =
      bitsOf
        (storedHeader (hdrBfinal s.asv.inflStat)
          s.asv.copyblockLen) ∧
    (restoreStored s).pending = s.pending := by
  have hHdrIb := hSave.hdrIb
  have hPad := hSave.padBits
  have hAligned := hSave.aligned
  have hFits := hSave.fits
  have hTotal :
      s.save.hdrIb + s.save.treeBits + s.save.padBits =
        64 := by
    omega
  unfold restoreStored
  rw [if_pos hCut]
  refine ⟨⟨?_, hSave.scratchIb, hSave.whole, ?_⟩, ?_, ?_⟩
  · constructor <;> simp
  · simp only
    omega
  · have hSplit :=
      ByteMem.store_store_append s.save.tree 0
        (storedHeader (hdrBfinal s.asv.inflStat)
          s.asv.copyblockLen) [0xaa, 0xaa]
    have hRead :=
      ByteMem.window_store_same s.save.tree 0
        (storedHeader (hdrBfinal s.asv.inflStat)
          s.asv.copyblockLen)
    rw [length_storedHeader] at hRead hSplit
    unfold SaveArea.header
    simp only
    rw [← hSplit, ByteMem.window_store_of_disjoint _
      (Or.inl (by decide)), hRead, List.drop_zero,
      List.take_of_length_le (by simp)]
  · have hStart : s.save.scratchStart = 8 := by
      unfold SaveArea.scratchStart
      omega
    have hBehind :
        (s.save.tree.store 0
          (storedHeader (hdrBfinal s.asv.inflStat)
            s.asv.copyblockLen ++ [0xaa, 0xaa])).window 8
              s.save.scratchLen =
          s.save.tree.window 8 s.save.scratchLen :=
      ByteMem.window_store_of_disjoint _ (Or.inr (by simp))
    have hNewStart :
        ∀ a : SaveArea, a.hdrIb = 0 → a.treeBits = 40 →
          a.padBits = 24 → a.scratchStart = 8 := by
      intro a hHdr hTree hRest
      unfold SaveArea.scratchStart
      rw [hHdr, hTree, hRest]
    unfold InflStream.pending SaveArea.scratch
    rw [hNewStart _ rfl rfl rfl, hStart, ← hBehind]
    rfl

/- A stored block was cut by the results. -/
def InflStream.cut (s : InflStream) : Bool :=
  (setupTreeEob s).cutStored

/- The header that is kept. -/
def InflStream.keptHeader (s : InflStream) : List Bool :=
  if s.cut then
    bitsOf
      (storedHeader (hdrBfinal s.asv.inflStat)
        s.asv.copyblockLen)
  else s.keptHdr

------------------------------------------------------------
-- Bringing the Save Area up to Date
------------------------------------------------------------

/- What the update of the save area comes to. -/
structure Conserved (s s' : InflStream) : Prop where
  save : SaveOk s'.save
  pending : s'.pending = s.offered.drop s.processed
  inpDataOffs : s'.inpDataOffs ≤ s.availIn
  strm :
    s' =
      { s with
        save := s'.save
        inpDataOffs := s'.inpDataOffs
        inDataUsed := s'.inDataUsed
        asv := s'.asv }
  inflStat : s'.asv.inflStat = s.asv.inflStat
  outpReturned : s'.asv.outpReturned = s.asv.outpReturned

theorem restoreStored_strm (s : InflStream) :
    restoreStored s =
      { s with save := (restoreStored s).save } := by
  unfold restoreStored
  split <;> rfl

theorem Updated.restore
    {s s' : InflStream}
    (hUpdate : Updated s s')
    (hCut : s.cut = true →
      0 < s.stopHdrBits ∧ s.stopHdrBits ≤ 57) :
    Conserved s (restoreStored s') ∧
      (restoreStored s').save.header = s.keptHeader := by
  have hAsv :
      s'.asv = (setupTreeEob s).asv :=
    (congrArg InflStream.asv hUpdate.strm :)
  rcases setupTreeEob_strm s with ⟨_, hEob, _⟩
  have hStat : s'.asv.inflStat = s.asv.inflStat := by
    rw [hAsv, hEob]
  have hLen : s'.asv.copyblockLen = s.asv.copyblockLen := by
    rw [hAsv, hEob]
  have hReturned :
      s'.asv.outpReturned = s.asv.outpReturned := by
    rw [hAsv, hEob]
  have hSameCut : s'.cutStored = s.cut := by
    unfold InflStream.cut InflStream.cutStored
    rw [hAsv]
  have hBits := hUpdate.treeBits
  have hStrm :
      restoreStored s' =
        { s with
          save := (restoreStored s').save
          inpDataOffs := (restoreStored s').inpDataOffs
          inDataUsed := (restoreStored s').inDataUsed
          asv := (restoreStored s').asv } := by
    rw [restoreStored_strm s', hUpdate.strm]
  have hOffs :
      (restoreStored s').inpDataOffs = s'.inpDataOffs :=
    (congrArg InflStream.inpDataOffs
      (restoreStored_strm s') :)
  have hSameAsv : (restoreStored s').asv = s'.asv :=
    (congrArg InflStream.asv (restoreStored_strm s') :)
  by_cases hIs : s.cut = true
  · rcases hCut hIs with ⟨hSome, hWord⟩
    rcases restoreStored_spec hUpdate.save
        (by omega) (by omega) (hSameCut.trans hIs) with
      ⟨hSave, hHeader, hPending⟩
    refine ⟨⟨hSave, hPending.trans hUpdate.pending,
      hOffs.le.trans hUpdate.inpDataOffs, hStrm, ?_, ?_⟩, ?_⟩
    · rw [hSameAsv, hStat]
    · rw [hSameAsv, hReturned]
    · unfold InflStream.keptHeader
      rw [if_pos hIs, hHeader, hStat, hLen]
  · have hSame : restoreStored s' = s' := by
      unfold restoreStored
      rw [hSameCut, if_neg hIs]
    rw [hSame] at hStrm ⊢
    refine ⟨⟨hUpdate.save, hUpdate.pending,
      hUpdate.inpDataOffs, hStrm, hStat, hReturned⟩, ?_⟩
    unfold InflStream.keptHeader
    rw [if_neg hIs]
    exact hUpdate.header

/- With the input taken, the scratch is all of it. -/
theorem pending_collected
    {s : InflStream}
    (hOff : Offered s)
    (hNoBits : s.inHdrBits = 0)
    (hFits : s.inHdrScratchLen + s.availIn ≤ zedcTreeLen) :
    let taken :=
      { s with
        inpDataOffs := s.inpDataOffs + s.availIn
        save :=
          { s.save with
            tree :=
              s.save.tree.store s.inHdrScratchLen s.nextIn
            scratchBits :=
              s.save.scratchBits + s.availIn * 8 } }
    SaveOk taken.save ∧ taken.pending = s.pending := by
  intro taken
  have hTree : s.save.treeBits = 0 := by
    rw [← hOff.inHdrBits]
    exact hNoBits
  have hStart := hOff.save.scratchStart_zero hTree
  have hLen := hOff.len
  have hWhole := hOff.save.whole
  have hIb := hOff.save.scratchIb
  have hEmpty := hOff.save.empty hTree
  have hAligned := hOff.save.aligned
  have hPad := hOff.save.padBits
  have hScratchLen :
      taken.save.scratchLen =
        s.save.scratchLen + s.availIn := by
    simp only [taken, SaveArea.scratchLen]
    omega
  constructor
  · refine ⟨⟨hOff.save.hdrIb, hPad, hAligned,
      hOff.save.empty, hOff.save.treeBits⟩, hIb, ?_, ?_⟩
    · simp only [taken]
      omega
    · simp only [taken]
      unfold SaveArea.scratchLen at hLen
      omega
  · have hBefore :
        (s.save.tree.store s.inHdrScratchLen s.nextIn).window
            s.save.scratchStart s.save.scratchLen =
          s.save.tree.window s.save.scratchStart
            s.save.scratchLen :=
      ByteMem.window_store_of_disjoint _
        (Or.inl (by rw [hLen]))
    have hTaken :=
      ByteMem.window_store_same s.save.tree
        s.inHdrScratchLen s.nextIn
    unfold InflStream.pending SaveArea.scratch
    rw [hScratchLen]
    change (bitsOf
      ((s.save.tree.store s.inHdrScratchLen s.nextIn).window
        s.save.scratchStart
        (s.save.scratchLen + s.availIn))).drop
          s.save.scratchIb ++
        bitsOf (s.nextIn.drop (s.inpDataOffs + s.availIn)) =
      _
    rw [ByteMem.window_add, hBefore, ← hLen,
      InflStream.availIn, hTaken, hOff.inpDataOffs,
      Nat.zero_add, List.drop_length, List.drop_zero,
      bitsOf_append, bitsOf_nil, List.append_nil]
    by_cases hNone : s.save.scratchLen = 0
    · have hNoIb : s.save.scratchIb = 0 := by
        unfold SaveArea.scratchLen at hNone
        omega
      simp [hNone, hNoIb]
    · exact List.drop_append_of_le_length
        (by simp; omega)

/- Nothing processed: the input joins the scratch. -/
theorem collectScratch_spec
    {s s' : InflStream}
    {rc : Rc}
    (hOff : Offered s)
    (hNoBits : s.inHdrBits = 0)
    (hNone : s.processed = 0)
    (hNoCut : s.asv.copyblockLen = 0)
    (hCollect : collectScratch s = some (rc, s')) :
    Conserved s s' ∧ s'.save.header = [] ∧
      (rc = .ok ∨ rc = .errTreeOverrun) := by
  have hTree : s.save.treeBits = 0 := by
    rw [← hOff.inHdrBits]
    exact hNoBits
  have hPending : s.pending = s.offered.drop s.processed := by
    rw [hOff.pending, hNoBits, hNone]
  have hNoHeader :
      ∀ a : SaveArea, a.treeBits = 0 → a.header = [] := by
    intro a hZero
    apply List.eq_nil_of_length_eq_zero
    rw [SaveArea.length_header]
    exact hZero
  have hRestore :
      ∀ t : InflStream, t.asv = s.asv →
        restoreStored t = t := by
    intro t hAsv
    unfold restoreStored InflStream.cutStored
    rw [hAsv, hNoCut]
    rfl
  have hSame : Conserved s s :=
    ⟨hOff.save, hPending, hOff.inpDataOffs.trans_le
      (Nat.zero_le _), rfl, rfl, rfl⟩
  unfold collectScratch at hCollect
  split at hCollect
  · cases hCollect
    exact ⟨hSame, hNoHeader _ hTree, Or.inr rfl⟩
  · split at hCollect
    · rw [hRestore s rfl] at hCollect
      cases hCollect
      exact ⟨hSame, hNoHeader _ hTree, Or.inl rfl⟩
    · split at hCollect
      · cases hCollect
      · rename_i hFits
        rcases pending_collected hOff hNoBits
          (Nat.not_lt.mp hFits) with ⟨hSave, hTaken⟩
        have hOffs :
            s.inpDataOffs + s.availIn ≤ s.availIn := by
          rw [hOff.inpDataOffs, Nat.zero_add]
        rw [hRestore] at hCollect
        · cases hCollect
          exact ⟨⟨hSave, hTaken.trans hPending, hOffs,
            rfl, rfl, rfl⟩, hNoHeader _ hTree, Or.inl rfl⟩
        · rfl

end Zedc
