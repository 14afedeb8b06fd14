import GenWqe.Inflate.Layout

/-
  The bytes of the header, tree and scratch area that an
  update writes, whether the copies stay inside or not.

  Key definitions include:
    * `TreeWrite`, `TreeWrite.Inside`
    * `updateWrites`
    * `TreeFits`

  Main results:
    * `postScratchUpd_inside`
    * `setupTree_outside`
    * `updateWrites_inside_iff`
-/

------------------------------------------------------------
-- Writes
------------------------------------------------------------

namespace Zedc

/- A number of bytes written at an offset of the area. -/
structure TreeWrite where
  off : Nat
  len : Nat

/- They have indices inside of it. -/
def TreeWrite.Inside (w : TreeWrite) : Prop :=
  w.len ≠ 0 → w.off + w.len ≤ zedcTreeLen

instance (w : TreeWrite) : Decidable w.Inside := by
  unfold TreeWrite.Inside
  infer_instance

/- What the copy behind the tree writes. -/
def copyWrites
    (target cnt : Nat) (srcOffs : Int) : List TreeWrite :=
  if cnt > 0 ∧ srcOffs < 0 then
    [⟨target, srcOffs.natAbs⟩,
      ⟨target + srcOffs.natAbs,
        wrapSub 32 cnt srcOffs.natAbs⟩]
  else [⟨target, cnt⟩]

/- What `extract_new_tree` writes. -/
def InflStream.treeWrites
    (s : InflStream) : List TreeWrite :=
  copyWrites s.treeCopy.1 s.treeCopy.2.1 s.treeCopy.2.2

/- What `scratch_update` writes. -/
def InflStream.scratchWrites
    (s : InflStream) : List TreeWrite :=
  copyWrites s.save.scratchTarget s.scratchTake.1
    s.scratchSrcOffs

/- The new tree is noted, as `extract_new_tree` does it. -/
def InflStream.treeNoted (s : InflStream) : InflStream :=
  { s with
    save :=
      { s.save with
        hdrIb := s.hdrOffs % 8
        treeBits := s.asv.outHdrBits
        padBits :=
          padBitsFor (s.hdrOffs % 8) s.asv.outHdrBits } }

/- What `setup_tree` writes. -/
def InflStream.setupWrites
    (s : InflStream) : List TreeWrite :=
  if passedEob s.asv.inflStat && finalEob s.asv.inflStat then
    []
  else if (setupTreeEob s).newHeader then
    (setupTreeEob s).treeWrites ++
      (setupTreeEob s).treeNoted.scratchWrites
  else (setupTreeEob s).scratchWrites

/- What the header of a cut stored block writes. -/
def InflStream.restoreWrites
    (s : InflStream) : List TreeWrite :=
  if s.cutStored then [⟨0, 7⟩] else []

/- What collecting the input writes. -/
def InflStream.collectWrites
    (s : InflStream) : List TreeWrite :=
  if s.availIn >
      wrapSub 32 zedcTreeLen s.inHdrScratchLen then
    []
  else if s.availIn = 0 then s.restoreWrites
  else ⟨s.inHdrScratchLen, s.availIn⟩ :: s.restoreWrites

/- What `post_scratch_upd` writes. -/
def updateWrites (s : InflStream) : List TreeWrite :=
  if s.asv.inpProcessed ≠ 0 ∨ s.asv.procBits ≠ 0 then
    { s with
      inDataUsed :=
        inpProcUpdate s.asv.inpProcessed s.asv.procBits
          s.preScratchBits }.setupWrites ++
      (setupTreeEob s).restoreWrites
  else s.collectWrites

/- All of them have indices inside the area. -/
def AllInside (writes : List TreeWrite) : Prop :=
  ∀ w ∈ writes, w.Inside

instance (writes : List TreeWrite) :
    Decidable (AllInside writes) := by
  unfold AllInside
  infer_instance

theorem allInside_append
    {ws ws' : List TreeWrite} :
    AllInside (ws ++ ws') ↔ AllInside ws ∧ AllInside ws' :=
  List.forall_mem_append

theorem restoreWrites_inside (s : InflStream) :
    AllInside s.restoreWrites := by
  unfold InflStream.restoreWrites
  split
  · decide
  · exact List.forall_mem_nil _

------------------------------------------------------------
-- Updates That Are No Fault
------------------------------------------------------------

theorem copyFromInput_inside
    {tree tree' : ByteMem}
    {nextIn : List UInt8}
    {target cnt srcOffs : Nat}
    (hCopy :
      copyFromInput tree nextIn target cnt srcOffs =
        some tree') :
    (TreeWrite.mk target cnt).Inside := by
  intro hSome
  unfold copyFromInput at hCopy
  rw [if_neg hSome] at hCopy
  split at hCopy
  · cases hCopy
  · rename_i hFits
    exact Nat.not_lt.mp fun hOver => hFits (Or.inr hOver)

theorem copyBehindTree_inside
    {s : InflStream}
    {target cnt : Nat}
    {srcOffs : Int}
    {tree : ByteMem}
    (hCopy :
      copyBehindTree s target cnt srcOffs = some tree) :
    AllInside (copyWrites target cnt srcOffs) := by
  unfold copyBehindTree at hCopy
  unfold copyWrites
  split at hCopy
  · rename_i hBack
    rw [if_pos hBack]
    simp only at hCopy
    split at hCopy
    · cases hCopy
    · rename_i hFits
      refine List.forall_mem_cons.mpr ⟨?_,
        List.forall_mem_singleton.mpr
          (copyFromInput_inside hCopy)⟩
      intro _
      simp only
      omega
  · rename_i hInput
    rw [if_neg hInput]
    exact List.forall_mem_singleton.mpr
      (copyFromInput_inside hCopy)

section Update

variable {s s' : InflStream}

theorem extractNewTree_inside
    (hExtract : extractNewTree s = some s') :
    AllInside s.treeWrites ∧
      s'.scratchWrites = s.treeNoted.scratchWrites := by
  unfold extractNewTree at hExtract
  simp only at hExtract
  split at hExtract
  · cases hExtract
  · rename_i hCopy
    cases hExtract
    exact ⟨copyBehindTree_inside hCopy, rfl⟩

theorem scratchUpdate_inside
    (hUpdate : scratchUpdate s = some s') :
    AllInside s.scratchWrites := by
  unfold scratchUpdate at hUpdate
  simp only at hUpdate
  split at hUpdate
  · cases hUpdate
  · rename_i hCopy
    exact copyBehindTree_inside hCopy

theorem setupTree_inside
    (hSetup : setupTree s = some s') :
    AllInside s.setupWrites := by
  unfold setupTree at hSetup
  unfold InflStream.setupWrites
  split at hSetup
  · rename_i hFinal
    rw [if_pos hFinal]
    exact List.forall_mem_nil _
  · rename_i hMore
    rw [if_neg hMore]
    unfold setupTreeNew at hSetup
    split at hSetup
    · rename_i hNew
      rw [if_pos hNew]
      split at hSetup
      · cases hSetup
      · rename_i hExtract
        rcases extractNewTree_inside hExtract with
          ⟨hTree, hSame⟩
        have hScratch := scratchUpdate_inside hSetup
        rw [hSame] at hScratch
        exact allInside_append.mpr ⟨hTree, hScratch⟩
    · rename_i hOld
      rw [if_neg hOld]
      exact scratchUpdate_inside hSetup

/- An update that is no fault writes inside the area. -/
theorem postScratchUpd_inside
    {rc : Rc}
    (hUpdate : postScratchUpd s = some (rc, s')) :
    AllInside (updateWrites s) := by
  unfold postScratchUpd at hUpdate
  unfold updateWrites
  split at hUpdate
  · rename_i hNoted
    rw [if_pos hNoted]
    split at hUpdate
    · cases hUpdate
    · rename_i hSetup
      exact allInside_append.mpr
        ⟨setupTree_inside hSetup, restoreWrites_inside _⟩
  · rename_i hNone
    rw [if_neg hNone]
    unfold collectScratch at hUpdate
    unfold InflStream.collectWrites
    split at hUpdate
    · rename_i hFull
      rw [if_pos hFull]
      exact List.forall_mem_nil _
    · rename_i hRoom
      rw [if_neg hRoom]
      split at hUpdate
      · rename_i hEmpty
        rw [if_pos hEmpty]
        exact restoreWrites_inside s
      · rename_i hSome
        rw [if_neg hSome]
        split at hUpdate
        · cases hUpdate
        · rename_i hFits
          exact List.forall_mem_cons.mpr
            ⟨fun _ => Nat.not_lt.mp hFits,
              restoreWrites_inside s⟩

end Update

------------------------------------------------------------
-- Updates That Are a Fault
------------------------------------------------------------

/-
  A copy out of the scratch and the input that is a fault
  writes outside of the area.
-/
theorem copyBehindTree_outside
    {s : InflStream}
    {T S target cnt k : Nat}
    (hArea : Area s T S)
    (hEnd : cnt ≠ 0 → k + cnt ≤ S + s.availIn)
    (hFault :
      copyBehindTree s target cnt ((k : Int) - S) = none) :
    ¬ AllInside (copyWrites target cnt ((k : Int) - S)) := by
  intro hInside
  have hFits := hArea.fits
  have hAvail := hArea.availIn
  unfold zedcTreeLen at hFits
  unfold zedcInflAvailInMax at hAvail
  have hSome : cnt ≠ 0 := by
    rintro rfl
    simp [copyBehindTree, copyFromInput] at hFault
  have hCnt := hEnd hSome
  unfold copyWrites at hInside
  by_cases hNeg : k < S
  · have hAbs : ((k : Int) - S).natAbs = S - k := by omega
    rw [if_pos ⟨by omega, by omega⟩, hAbs] at hInside
    rcases List.forall_mem_cons.mp hInside with
      ⟨hFirst, hRest⟩
    have hNext := List.forall_mem_singleton.mp hRest
    unfold TreeWrite.Inside zedcTreeLen at hFirst hNext
    simp only at hFirst hNext
    by_cases hShort : k + cnt < S
    · -- what is left to copy becomes a huge number
      rw [wrapSub_of_lt (by omega) (by omega)] at hNext
      omega
    · rw [copyBehindTree_eq hArea hEnd
        (fun _ => Nat.not_lt.mp hShort)] at hFault
      rw [wrapSub_of_le (by omega) (by omega)] at hNext
      split at hFault
      · rename_i hOver
        unfold zedcTreeLen at hOver
        omega
      · cases hFault
  · rw [if_neg (by omega)] at hInside
    have hOnly := List.forall_mem_singleton.mp hInside hSome
    rw [copyBehindTree_eq hArea hEnd (by omega)] at hFault
    split at hFault
    · rename_i hOver
      exact absurd hOnly (Nat.not_le.mpr hOver.2)
    · cases hFault

section Faults

variable {s s' : InflStream} {T S : Nat}

theorem extractNewTree_outside
    (hArea : Area s T S)
    (hIn : HdrInside s)
    (hBehind : s.inHdrBits ≤ s.hdrStartTotalBits)
    (hFault : extractNewTree s = none) :
    ¬ AllInside s.treeWrites := by
  have hLow :
      s.inHdrBits ≤
        s.hdrStartTotalBits + s.save.scratchIb :=
    hBehind.trans (Nat.le_add_right _ _)
  have hEnd := hIn.hdrEnd hArea hLow
  have hCopy :
      copyBehindTree s s.treeCopy.1 s.treeCopy.2.1
        s.treeCopy.2.2 = none := by
    unfold extractNewTree at hFault
    simp only at hFault
    split at hFault
    · assumption
    · cases hFault
  unfold InflStream.treeWrites
  rw [InflStream.treeCopy_eq hArea, hIn.hdrOffs hArea hLow,
    ← InflStream.hdrLen] at hCopy ⊢
  by_cases hFirst : s.HdrFirst
  · rw [if_pos hFirst] at hCopy ⊢
    have hZero : s.hdrAt / 8 = 0 := by
      have hIb := hArea.ib
      unfold InflStream.hdrAt
      rw [hFirst.1, hFirst.2]
      omega
    by_cases hLong : s.hdrLen > S
    · -- the part of the header behind the scratch
      have hFrom :
          ((s.hdrAt / 8 : Nat) : Int) - S + S =
            (S : Int) - S := by
        omega
      rw [if_pos hLong, hFrom] at hCopy ⊢
      simp only at hCopy ⊢
      exact copyBehindTree_outside hArea
        (fun _ => by omega) hCopy
    · rw [if_neg hLong] at hCopy ⊢
      exact copyBehindTree_outside hArea
        (fun hSome => absurd rfl hSome) hCopy
  · rw [if_neg hFirst] at hCopy ⊢
    exact copyBehindTree_outside hArea (fun _ => hEnd) hCopy

theorem scratchUpdate_outside
    (hArea : Area s T S)
    (hProc : ProcInside s)
    (hFault : scratchUpdate s = none) :
    ¬ AllInside s.scratchWrites := by
  rcases InflStream.scratchTake_eq hArea hProc with
    ⟨hTake, hSrc, _, hEnd, _⟩
  unfold scratchUpdate at hFault
  unfold InflStream.scratchWrites
  rw [hTake] at hFault ⊢
  simp only at hFault ⊢
  rw [hSrc] at hFault ⊢
  apply copyBehindTree_outside hArea (fun _ => hEnd)
  cases hCopy : copyBehindTree s s.save.scratchTarget
      (s.keepLen S) (((s.stopAt / 8 : Nat) : Int) - S) with
  | none => rfl
  | some tree =>
      rw [hCopy] at hFault
      cases hFault

/- Where `setup_tree` is a fault, it writes outside. -/
theorem setupTree_outside
    {ex : InflExchange}
    (hNoted : Noted s ex)
    (hBehind :
      ex.found = true →
        ex.req.inHdrBits ≤ ex.resp.hdrStartTotal)
    (hFault : setupTree s = none) :
    ¬ AllInside s.setupWrites := by
  rcases hNoted with ⟨hOff, hAsv, hAns⟩
  have hArea := hOff.areaEob.1
  have hSame := setupTreeEob_same s
  unfold setupTree at hFault
  unfold InflStream.setupWrites
  split at hFault
  · cases hFault
  · rename_i hMore
    rw [if_neg hMore]
    unfold setupTreeNew at hFault
    split at hFault
    · rename_i hNew
      rw [if_pos hNew, allInside_append]
      rintro ⟨hTree, hScratch⟩
      split at hFault
      · rename_i hExtract
        have hStart :
            (setupTreeEob s).hdrStartTotalBits =
              ex.resp.hdrStartTotal := by
          rw [← hAns.hdrStart]
          unfold InflStream.hdrStartTotalBits
          rw [((setupTreeEob_strm s).2.2 hNew).2]
        apply extractNewTree_outside hArea
          (hAsv.inside hNew) _ hExtract hTree
        rw [hStart, hSame.inHdrBits, hAns.inHdrBits]
        exact hBehind (hAns.found.symm.trans hNew)
      · rename_i s₁ hExtract
        rw [← (extractNewTree_inside hExtract).2]
          at hScratch
        have hReady : s₁ = s.ready := by
          rcases extractNewTree_eq hArea (hAsv.inside hNew)
            with ⟨hMoved, hStuck⟩
          have hTree : s.ready =
              (setupTreeEob s).withTree s.save.scratchStart
                s.save.scratchLen := if_pos hNew
          by_cases hMove :
              HdrMovable (setupTreeEob s) s.save.scratchLen
          · rw [hMoved hMove] at hExtract
            exact (Option.some.inj hExtract).symm.trans
              hTree.symm
          · rw [hStuck hMove] at hExtract
            cases hExtract
        rw [hReady] at hFault hScratch
        exact scratchUpdate_outside hArea.treeReady
          (hAsv.proc.eob.treeReady _ _) hFault hScratch
    · rename_i hOld
      rw [if_neg hOld]
      exact scratchUpdate_outside hArea hAsv.proc.eob hFault

end Faults

------------------------------------------------------------
-- When Everything Has Room
------------------------------------------------------------

/- The bytes that header, padding and scratch take. -/
def SaveArea.layoutLen (a : SaveArea) : Nat :=
  (a.hdrIb + a.treeBits + a.padBits + a.scratchIb +
    a.scratchBits) / 8

/-
  What is to be kept has room in the area: a new header that
  is not the first thing offered ends in the input or where
  the scratch ends, and header and rest are not too long.
-/
structure TreeFits (ex : InflExchange) : Prop where
  last :
    ex.found = true →
      (ex.resp.hdrStartTotal = 0 ∧ ex.req.inHdrBits = 0) ∨
        ex.req.scratchLen ≤ ex.hdrAt / 8 + ex.hdrLen
  header : ex.found = true → ex.hdrLen ≤ zedcTreeLen
  scratch :
    ex.keepLen ≠ 0 →
      (ex.stopHdrBits + ex.stopHdrIb + 63) / 64 * 8 +
        ex.keepLen ≤ zedcTreeLen

/- Nothing is to be kept behind the final block. -/
def InflExchange.final (ex : InflExchange) : Bool :=
  passedEob ex.resp.inflStat && finalEob ex.resp.inflStat

/-
  A response that is honest, or that says that nothing was
  processed; a new header stands behind the old one.
-/
structure HonestUpdate (ex : InflExchange) : Prop
    extends HonestOrIdle ex where
  behind :
    ex.found = true →
      ex.req.inHdrBits ≤ ex.resp.hdrStartTotal

section Room

variable {s s' t : InflStream} {ex : InflExchange} {rc : Rc}

theorem Noted.saveFits_iff
    (hNoted : Noted t ex)
    (hBehind :
      ex.found = true →
        ex.req.inHdrBits ≤ ex.resp.hdrStartTotal) :
    SaveFits t ↔ TreeFits ex := by
  have hAns := hNoted.answered
  constructor
  · intro hFits
    have hMoves :
        ex.found = true →
          HdrMoves ex ∧ ex.hdrLen ≤ zedcTreeLen :=
      fun hFound =>
        (hAns.movable_iff hFound).mp
          (hFits.movable (hAns.found.trans hFound))
    exact ⟨fun hFound => (hMoves hFound).1.last,
      fun hFound => (hMoves hFound).2,
      hAns.hasRoom_iff.mp hFits.room⟩
  · intro hFits
    refine ⟨fun hIs => ?_,
      hAns.hasRoom_iff.mpr hFits.scratch⟩
    have hFound := hAns.found.symm.trans hIs
    exact (hAns.movable_iff hFound).mpr
      ⟨⟨(hBehind hFound).trans (Nat.le_add_right _ _),
        hFits.last hFound⟩, hFits.header hFound⟩

/- What is kept is in order, and there is room for it. -/
theorem SaveOk.layoutLen
    {a : SaveArea}
    (hOk : SaveOk a) :
    a.layoutLen ≤ zedcTreeLen := by
  have hFits := hOk.fits
  unfold SaveArea.layoutLen
  omega

/- Collected input is never written outside of the area. -/
theorem collectScratch_some
    (hOff : Offered s) :
    ∃ rc s', collectScratch s = some (rc, s') := by
  have hLen := hOff.len
  have hFits := hOff.area.fits
  have hAvail := hOff.availIn
  have hWrap :
      wrapSub 32 zedcTreeLen s.inHdrScratchLen =
        zedcTreeLen - s.inHdrScratchLen :=
    wrapSub_of_le (by omega)
      (by unfold zedcTreeLen; omega)
  unfold collectScratch
  rw [hWrap]
  split
  · exact ⟨_, _, rfl⟩
  · split
    · exact ⟨_, _, rfl⟩
    · rw [if_neg (by omega)]
      exact ⟨_, _, rfl⟩

/- Behind the final block hardly anything is kept. -/
theorem setupTree_final
    (hIb : s.save.scratchIb < 8)
    (hFinal :
      (passedEob s.asv.inflStat &&
        finalEob s.asv.inflStat) = true) :
    ∃ s', setupTree s = some s' ∧
      (restoreStored s').save.layoutLen ≤ zedcTreeLen := by
  have hPassed : passedEob s.asv.inflStat = true :=
    (Bool.and_eq_true_iff.mp hFinal).1
  unfold setupTree
  rw [if_pos hFinal]
  refine ⟨_, rfl, ?_⟩
  have hSave :
      (setupTreeEob s).save = s.dropTree.save := by
    unfold setupTreeEob
    rw [if_pos hPassed]
    split <;> rfl
  unfold restoreStored
  split
  · simp only [hSave]
    unfold SaveArea.layoutLen InflStream.dropTree zedcTreeLen
    simp only
    omega
  · simp only [hSave]
    unfold SaveArea.layoutLen InflStream.dropTree zedcTreeLen
    simp only
    omega

/- `setup_tree` stays inside exactly if there is room. -/
theorem setupWrites_inside_iff
    (hNoted : Noted t ex)
    (hStored :
      ex.cut = true →
        0 < ex.stopHdrBits ∧ ex.stopHdrBits ≤ 57)
    (hBehind :
      ex.found = true →
        ex.req.inHdrBits ≤ ex.resp.hdrStartTotal) :
    (AllInside t.setupWrites ↔
      (ex.final = true ∨ TreeFits ex)) ∧
    (AllInside t.setupWrites →
      ∃ s₁, setupTree t = some s₁ ∧
        (restoreStored s₁).save.layoutLen ≤ zedcTreeLen) := by
  have hStat : t.asv.inflStat = ex.resp.inflStat :=
    hNoted.answered.inflStat
  by_cases hFinal : ex.final = true
  · have hEnd := hFinal
    unfold InflExchange.final at hEnd
    rw [← hStat] at hEnd
    rcases setupTree_final
      hNoted.offered.save.scratchIb hEnd with
      ⟨s', hSetup, hLen⟩
    exact ⟨⟨fun _ => Or.inl hFinal,
      fun _ => setupTree_inside hSetup⟩,
      fun _ => ⟨s', hSetup, hLen⟩⟩
  · have hMore :
        (passedEob t.asv.inflStat &&
          finalEob t.asv.inflStat) = false := by
      rw [hStat]
      exact (Bool.not_eq_true _).mp hFinal
    have hIff := hNoted.saveFits_iff hBehind
    have hSetup :=
      fun s₁ =>
        @setupTree_some_iff t s₁ hNoted.offered
          hNoted.asvHonest hMore
    have hInside :
        AllInside t.setupWrites → SaveFits t := by
      intro hAll
      cases hRes : setupTree t with
      | none =>
          exact absurd hAll
            (setupTree_outside hNoted hBehind hRes)
      | some s₁ => exact ((hSetup s₁).mp hRes).1
    constructor
    · constructor
      · exact fun hAll => Or.inr (hIff.mp (hInside hAll))
      · rintro (hEnd | hFits)
        · exact absurd hEnd hFinal
        · exact setupTree_inside
            ((hSetup _).mpr ⟨hIff.mpr hFits, rfl⟩)
    · intro hAll
      have hRes := (hSetup _).mpr ⟨hInside hAll, rfl⟩
      have hUpdated :=
        setupTree_spec hNoted.offered hNoted.asvHonest
          hMore hRes
      refine ⟨_, hRes, SaveOk.layoutLen ?_⟩
      refine (hUpdated.restore ?_).1.save
      rw [hNoted.answered.cut, hNoted.answered.stopHdrBits]
      exact hStored

/-
  An update behind an honest response stays inside the area
  exactly if what is to be kept has room; else it is a fault.
-/
theorem updateWrites_inside_iff
    (pages : Bool → ByteMem)
    (hReq : Requesting s)
    (hParts : RequestParts s ex)
    (hHonest : HonestUpdate ex) :
    (AllInside (updateWrites (s.answered pages ex.resp)) ↔
      (ex.resp.processed = 0 ∨ ex.final = true ∨
        TreeFits ex)) ∧
    (AllInside (updateWrites (s.answered pages ex.resp)) →
      ∃ rc s',
        postScratchUpd (s.answered pages ex.resp) =
            some (rc, s') ∧
          s'.save.layoutLen ≤ zedcTreeLen) := by
  have hProc := processed_answered pages ex.resp s
  by_cases hNone : ex.resp.processed = 0
  · have hOff := hReq.offered pages ex.resp
    have hNoCut :
        (s.answered pages ex.resp).asv.copyblockLen = 0 :=
      hHonest.nothing hNone
    rw [hNone] at hProc
    generalize s.answered pages ex.resp = t at *
    have hUpd : postScratchUpd t = collectScratch t := by
      unfold InflStream.processed at hProc
      exact if_neg (by omega)
    rcases collectScratch_some hOff with
      ⟨rc, s', hCollect⟩
    have hSave :=
      (collectScratch_placed hOff hNoCut hCollect).save
    rw [← hUpd] at hCollect
    exact ⟨⟨fun _ => Or.inl hNone,
      fun _ => postScratchUpd_inside hCollect⟩,
      fun _ => ⟨rc, s', hCollect, hSave.layoutLen⟩⟩
  · have hTold := hHonest.honest hNone
    have hNoted :=
      hTold.noted hParts hReq pages hNone
        (inpProcUpdate
          (s.answered pages ex.resp).asv.inpProcessed
          (s.answered pages ex.resp).asv.procBits
          (s.answered pages ex.resp).preScratchBits)
    have hSome := hNone
    rw [← hProc] at hSome
    generalize s.answered pages ex.resp = t at *
    have hBits :
        t.asv.inpProcessed ≠ 0 ∨ t.asv.procBits ≠ 0 := by
      unfold InflStream.processed at hSome
      omega
    have hUpd :
        postScratchUpd t =
          (setupTree
              { t with
                inDataUsed :=
                  inpProcUpdate t.asv.inpProcessed
                    t.asv.procBits t.preScratchBits }).map
            fun s₁ => (.ok, restoreStored s₁) := by
      unfold postScratchUpd
      rw [if_pos hBits]
      cases setupTree _ <;> rfl
    have hWrites :
        updateWrites t =
          { t with
            inDataUsed :=
              inpProcUpdate t.asv.inpProcessed
                t.asv.procBits
                t.preScratchBits }.setupWrites ++
            (setupTreeEob t).restoreWrites :=
      if_pos hBits
    rw [hUpd, hWrites, allInside_append,
      and_iff_left (restoreWrites_inside _)]
    generalize
      { t with
        inDataUsed :=
          inpProcUpdate t.asv.inpProcessed t.asv.procBits
            t.preScratchBits } = t' at *
    rcases setupWrites_inside_iff hNoted hTold.stored
      hHonest.behind with ⟨hIff, hKeeps⟩
    refine ⟨hIff.trans ?_, fun hAll => ?_⟩
    · exact ⟨Or.inr, fun hCond => hCond.resolve_left hNone⟩
    · rcases hKeeps hAll with ⟨s₁, hSetup, hLen⟩
      rw [hSetup]
      exact ⟨_, _, rfl, hLen⟩

end Room

end Zedc
