import GenWqe.Inflate.Stream
import GenWqe.Lib.Bits

/-
  The header, tree and scratch area of the workspace: how it
  is brought up to date from the results of an inflate DDCB.
  A copy that leaves the buffers it reads and writes is a
  fault, `none`.

  Key definitions include:
    * `inpProcUpdate`
    * `copyBehindTree`
    * `extractNewTree`, `scratchUpdate` and `setupTree`
    * `postScratchUpd`

  Main results:
    * `postScratchUpd_changes`
-/

------------------------------------------------------------
-- Counting Input
------------------------------------------------------------

namespace Zedc

open Bits

/- `inp_proc_update` -/
def inpProcUpdate
    (inpProcessed procBits preScratchBits : Nat) : Nat :=
  let inTotal :=
    wrapSub 64 (inpProcessed * 8 + procBits) preScratchBits
  (inTotal + 7) % 2 ^ 64 / 8 % 2 ^ 32

/- `in_scratch_bytes` -/
def InflStream.inScratchBytes (s : InflStream) : Nat :=
  (s.save.scratchBits + s.save.scratchIb) % 2 ^ 32 / 8

/- `hdr_start_total_bits` -/
def InflStream.hdrStartTotalBits (s : InflStream) : Nat :=
  s.asv.hdrStart * 8 + s.asv.outHdrStartBits

/- `hdr_offs`: where the new header is, from the scratch on. -/
def InflStream.hdrOffs (s : InflStream) : Nat :=
  (wrapSub 64 s.hdrStartTotalBits s.inHdrBits +
    s.save.scratchIb) % 2 ^ 64

/- `scratch_offs`: what was processed, from the scratch on. -/
def InflStream.scratchOffs (s : InflStream) : Nat :=
  (wrapSub 64 (s.asv.inpProcessed * 8 + s.asv.procBits)
    s.inHdrBits + s.save.scratchIb) % 2 ^ 64

------------------------------------------------------------
-- Copying
------------------------------------------------------------

/- The copy of `cnt` bytes at `next_in + src_offs`. -/
def copyFromInput
    (tree : ByteMem)
    (nextIn : List UInt8)
    (target cnt srcOffs : Nat) : Option ByteMem :=
  if cnt = 0 then some tree
  else if srcOffs + cnt > nextIn.length ∨
      target + cnt > zedcTreeLen then
    none
  else
    some (tree.store target ((nextIn.drop srcOffs).take cnt))

/-
  The copy that `extract_new_tree` and `scratch_update` both
  end with: a negative offset reads from behind the tree.
-/
def copyBehindTree
    (s : InflStream) (target cnt : Nat) (srcOffs : Int) :
    Option ByteMem :=
  if cnt > 0 ∧ srcOffs < 0 then
    let back := srcOffs.natAbs
    if back > s.inHdrScratchLen ∨
        s.inHdrScratchLen > zedcTreeLen ∨
        target + back > zedcTreeLen then
      none
    else
      copyFromInput
        (s.save.tree.store target
          (s.save.tree.window (s.inHdrScratchLen - back)
            back))
        s.nextIn (target + back) (wrapSub 32 cnt back) 0
  else
    copyFromInput s.save.tree s.nextIn target cnt
      srcOffs.toNat

/-
  `target`, `cnt` and `src_offs` of the new tree. A header
  that starts the scratch stays where it is.
-/
def InflStream.treeCopy
    (s : InflStream) : Nat × Nat × Int :=
  let cnt := (s.asv.outHdrBits + s.hdrOffs % 8 + 7) / 8
  let srcOffs :=
    asSigned 64 (wrapSub 64 (s.hdrOffs / 8) s.inScratchBytes)
  if s.hdrStartTotalBits = 0 ∧ s.inHdrBits = 0 then
    if cnt > s.inScratchBytes then
      (s.inScratchBytes, cnt - s.inScratchBytes,
        srcOffs + s.inScratchBytes)
    else (0, 0, srcOffs)
  else (0, cnt, srcOffs)

/- The padding behind a tree, to a multiple of 64 bits. -/
def padBitsFor (hdrIb treeBits : Nat) : Nat :=
  if treeBits > 0 then (64 - (hdrIb + treeBits) % 64) % 64
  else 0

/- `extract_new_tree` -/
def extractNewTree (s : InflStream) : Option InflStream :=
  let (target, cnt, srcOffs) := s.treeCopy
  match copyBehindTree s target cnt srcOffs with
  | none => none
  | some tree =>
    some
      { s with
        save :=
          { s.save with
            tree := tree
            hdrIb := s.hdrOffs % 8
            treeBits := s.asv.outHdrBits
            padBits :=
              padBitsFor (s.hdrOffs % 8) s.asv.outHdrBits } }

------------------------------------------------------------
-- The Scratch
------------------------------------------------------------

/- `src_offs` of `scratch_update` -/
def InflStream.scratchSrcOffs (s : InflStream) : Int :=
  asSigned 64
    (wrapSub 64 (s.scratchOffs / 8) s.inScratchBytes)

/- Where the scratch starts behind the tree. -/
def SaveArea.scratchTarget (a : SaveArea) : Nat :=
  (a.treeBits + a.hdrIb + 63) / 64 * 8

/-
  The bytes of the scratch that must persist, and the input
  that is used up with them: `cnt` and `inp_data_offs`.
-/
def InflStream.scratchKeep (s : InflStream) : Nat × Nat :=
  if 0 ≤ s.scratchSrcOffs then
    let cnt := if s.scratchOffs % 8 = 0 then 0 else 1
    (cnt, (s.scratchSrcOffs.toNat + cnt) % 2 ^ 32)
  else
    (wrapSub 64 s.inScratchBytes (s.scratchOffs / 8) % 2 ^ 32,
      0)

/- With output space left, all the input goes there as well. -/
def InflStream.scratchTake (s : InflStream) : Nat × Nat :=
  let (cnt, inpDataOffs) := s.scratchKeep
  if s.availOut > s.asv.outpReturned then
    ((cnt + wrapSub 32 s.availIn inpDataOffs) % 2 ^ 32,
      s.availIn)
  else (cnt, inpDataOffs)

/- `scratch_update` -/
def scratchUpdate (s : InflStream) : Option InflStream :=
  let (cnt, inpDataOffs) := s.scratchTake
  match copyBehindTree s s.save.scratchTarget cnt
      s.scratchSrcOffs with
  | none => none
  | some tree =>
    some
      { s with
        inpDataOffs := inpDataOffs
        save :=
          { s.save with
            tree := tree
            scratchIb := s.scratchOffs % 8
            scratchBits :=
              wrapSub 32 (cnt * 8 % 2 ^ 32)
                (s.scratchOffs % 8) } }

------------------------------------------------------------
-- After a DDCB
------------------------------------------------------------

/- No tree is held. -/
def InflStream.dropTree (s : InflStream) : InflStream :=
  { s with
    save := { s.save with treeBits := 0, padBits := 0,
                          hdrIb := 0 } }

/- The part of `setup_tree` for an end of block. -/
def setupTreeEob (s : InflStream) : InflStream :=
  if passedEob s.asv.inflStat then
    if reachedEob s.asv.inflStat then
      { s.dropTree with
        asv :=
          { s.asv with outHdrBits := 0, outHdrStartBits := 0 } }
    else s.dropTree
  else s

/- `setup_tree` has found a new header. -/
def InflStream.newHeader (s : InflStream) : Bool :=
  0 < s.asv.outHdrBits &&
    (0 < s.hdrStartTotalBits || s.inHdrBits == 0)

/- The part of `setup_tree` for the header and the scratch. -/
def setupTreeNew (s : InflStream) : Option InflStream :=
  if s.newHeader then
    match extractNewTree s with
    | none => none
    | some s₁ => scratchUpdate s₁
  else scratchUpdate s

/- `setup_tree` -/
def setupTree (s : InflStream) : Option InflStream :=
  if passedEob s.asv.inflStat && finalEob s.asv.inflStat then
    let s₁ := setupTreeEob s
    some
      { s₁ with
        inpDataOffs := s₁.inDataUsed
        eobSeen := true
        save := { s₁.save with scratchBits := 0 } }
  else setupTreeNew (setupTreeEob s)

/- The header of a stored block with `len` bytes left. -/
def storedHeader (bfinal : Bool) (len : UInt16) :
    List UInt8 :=
  [if bfinal then 1 else 0,
    len.toUInt8, (len >>> 8).toUInt8,
    (~~~len).toUInt8, (~~~len >>> 8).toUInt8]

/- A stored block was cut: make a header for its rest. -/
def InflStream.cutStored (s : InflStream) : Bool :=
  s.asv.copyblockLen != 0 && hdrTypeStored s.asv.inflStat &&
    s.asv.outHdrBits != 0

def restoreStored (s : InflStream) : InflStream :=
  if s.cutStored then
    { s with
      save :=
        { s.save with
          tree :=
            s.save.tree.store 0
              (storedHeader (hdrBfinal s.asv.inflStat)
                s.asv.copyblockLen ++ [0xaa, 0xaa])
          hdrIb := 0
          treeBits := 40
          padBits := 24 } }
  else s

/- Nothing was processed: the input goes to the scratch. -/
def collectScratch (s : InflStream) :
    Option (Rc × InflStream) :=
  if s.availIn >
      wrapSub 32 zedcTreeLen s.inHdrScratchLen then
    some (.errTreeOverrun, s)
  else if s.availIn = 0 then some (.ok, restoreStored s)
  else if s.inHdrScratchLen + s.availIn > zedcTreeLen then
    none
  else
    some (.ok,
      restoreStored
        { s with
          inpDataOffs := s.inpDataOffs + s.availIn
          save :=
            { s.save with
              tree :=
                s.save.tree.store s.inHdrScratchLen s.nextIn
              scratchBits :=
                s.save.scratchBits + s.availIn * 8 } })

/- `post_scratch_upd` -/
def postScratchUpd (s : InflStream) :
    Option (Rc × InflStream) :=
  if s.asv.inpProcessed ≠ 0 ∨ s.asv.procBits ≠ 0 then
    match setupTree
        { s with
          inDataUsed :=
            inpProcUpdate s.asv.inpProcessed s.asv.procBits
              s.preScratchBits } with
    | none => none
    | some s₁ => some (.ok, restoreStored s₁)
  else collectScratch s

------------------------------------------------------------
-- What the Update Changes
------------------------------------------------------------

/-
  Only the save area changes, and the results as far as they
  are about it; the final block may be seen.
-/
structure SaveChanged (s s' : InflStream) : Prop where
  strm :
    s' =
      { s with
        save := s'.save
        asv := s'.asv
        eobSeen := s'.eobSeen
        inpDataOffs := s'.inpDataOffs
        inDataUsed := s'.inDataUsed }
  inflStat : s'.asv.inflStat = s.asv.inflStat
  outpReturned : s'.asv.outpReturned = s.asv.outpReturned
  eobSeen :
    s'.eobSeen = s.eobSeen ∨ finalEob s.asv.inflStat = true

theorem SaveChanged.refl (s : InflStream) : SaveChanged s s :=
  ⟨rfl, rfl, rfl, Or.inl rfl⟩

theorem SaveChanged.trans
    {s s₁ s₂ : InflStream}
    (hFirst : SaveChanged s s₁)
    (hNext : SaveChanged s₁ s₂) :
    SaveChanged s s₂ := by
  refine ⟨?_, hNext.inflStat.trans hFirst.inflStat,
    hNext.outpReturned.trans hFirst.outpReturned, ?_⟩
  · have hStrm := hNext.strm
    rw [hFirst.strm] at hStrm
    exact hStrm
  · rcases hNext.eobSeen with hSame | hFinal
    · rcases hFirst.eobSeen with hSame' | hFinal
      · exact Or.inl (hSame.trans hSame')
      · exact Or.inr hFinal
    · rw [hFirst.inflStat] at hFinal
      exact Or.inr hFinal

theorem extractNewTree_changes
    {s s' : InflStream}
    (hExtract : extractNewTree s = some s') :
    SaveChanged s s' := by
  unfold extractNewTree at hExtract
  simp only at hExtract
  split at hExtract
  · cases hExtract
  · cases hExtract
    exact ⟨rfl, rfl, rfl, Or.inl rfl⟩

theorem scratchUpdate_changes
    {s s' : InflStream}
    (hUpdate : scratchUpdate s = some s') :
    SaveChanged s s' := by
  unfold scratchUpdate at hUpdate
  simp only at hUpdate
  split at hUpdate
  · cases hUpdate
  · cases hUpdate
    exact ⟨rfl, rfl, rfl, Or.inl rfl⟩

theorem setupTreeEob_changes (s : InflStream) :
    SaveChanged s (setupTreeEob s) := by
  unfold setupTreeEob
  split
  · split <;> exact ⟨rfl, rfl, rfl, Or.inl rfl⟩
  · exact SaveChanged.refl s

theorem setupTree_changes
    {s s' : InflStream}
    (hSetup : setupTree s = some s') :
    SaveChanged s s' := by
  have hEob := setupTreeEob_changes s
  unfold setupTree at hSetup
  split at hSetup
  · rename_i hFinal
    cases hSetup
    refine hEob.trans ⟨rfl, rfl, rfl, Or.inr ?_⟩
    rw [hEob.inflStat]
    exact (Bool.and_eq_true _ _ ▸ hFinal).2
  · unfold setupTreeNew at hSetup
    split at hSetup
    · cases hExtract : extractNewTree (setupTreeEob s) with
      | none =>
          rw [hExtract] at hSetup
          cases hSetup
      | some s₁ =>
          rw [hExtract] at hSetup
          exact (hEob.trans
            (extractNewTree_changes hExtract)).trans
            (scratchUpdate_changes hSetup)
    · exact hEob.trans (scratchUpdate_changes hSetup)

theorem restoreStored_changes (s : InflStream) :
    SaveChanged s (restoreStored s) := by
  unfold restoreStored
  split <;> exact ⟨rfl, rfl, rfl, Or.inl rfl⟩

theorem postScratchUpd_changes
    {s s' : InflStream}
    {rc : Rc}
    (hUpdate : postScratchUpd s = some (rc, s')) :
    SaveChanged s s' ∧ (rc = .ok ∨ rc = .errTreeOverrun) := by
  unfold postScratchUpd at hUpdate
  split at hUpdate
  · split at hUpdate
    · cases hUpdate
    · rename_i s₁ hSetup
      cases hUpdate
      have hUsed :
          SaveChanged s
            { s with
              inDataUsed :=
                inpProcUpdate s.asv.inpProcessed
                  s.asv.procBits s.preScratchBits } :=
        ⟨rfl, rfl, rfl, Or.inl rfl⟩
      exact ⟨(hUsed.trans (setupTree_changes hSetup)).trans
        (restoreStored_changes s₁), Or.inl rfl⟩
  · unfold collectScratch at hUpdate
    split at hUpdate
    · cases hUpdate
      exact ⟨SaveChanged.refl s, Or.inr rfl⟩
    · split at hUpdate
      · cases hUpdate
        exact ⟨restoreStored_changes s, Or.inl rfl⟩
      · split at hUpdate
        · cases hUpdate
        · cases hUpdate
          have hTaken :
              SaveChanged s
                { s with
                  inpDataOffs := s.inpDataOffs + s.availIn
                  save :=
                    { s.save with
                      tree :=
                        s.save.tree.store s.inHdrScratchLen
                          s.nextIn
                      scratchBits :=
                        s.save.scratchBits +
                          s.availIn * 8 } } :=
            ⟨rfl, rfl, rfl, Or.inl rfl⟩
          exact ⟨hTaken.trans (restoreStored_changes _),
            Or.inl rfl⟩

end Zedc
