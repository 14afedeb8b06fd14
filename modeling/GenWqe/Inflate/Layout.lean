import GenWqe.Inflate.Accounts
import GenWqe.Inflate.Conservation

/-
  Where the parts of the save area stand: the scratch starts
  behind header and padding at the offset to which it was
  written, whatever honest responses have come before.

  Key definitions include:
    * `scratchInput`, `scratchWrittenAt`
    * `Placed`

  Main results:
    * `postScratchUpd_placed`
    * `zedcInflate_placed`
-/

------------------------------------------------------------
-- Where the Scratch Is Written
------------------------------------------------------------

namespace Zedc

/- The stream as `setup_tree` hands it to `scratch_update`. -/
def InflStream.scratchInput
    (s : InflStream) : Option InflStream :=
  if s.newHeader then extractNewTree s else some s

/- The offset to which it writes in `setup_tree`, if it does. -/
def InflStream.setupWrittenAt
    (s : InflStream) : Option Nat :=
  if passedEob s.asv.inflStat && finalEob s.asv.inflStat then
    none
  else
    (setupTreeEob s).scratchInput.map fun s₁ =>
      s₁.save.scratchTarget

/- The same in the update behind a DDCB. -/
def InflStream.scratchWrittenAt
    (s : InflStream) : Option Nat :=
  if s.asv.inpProcessed ≠ 0 ∨ s.asv.procBits ≠ 0 then
    { s with
      inDataUsed :=
        inpProcUpdate s.asv.inpProcessed s.asv.procBits
          s.preScratchBits }.setupWrittenAt
  else none

/- The same in a call of `zedc_inflate`. -/
def scratchWritten
    (flush : Flush) (env : InflateEnv) (s : InflStream) :
    Option Nat :=
  match inflatePrepare flush s with
  | some (.inr s₁) =>
      match inflateExecute flush env s₁ with
      | (.done ex, s₂) =>
          (getInflateAsv ex.resp s₂).scratchWrittenAt
      | _ => none
  | _ => none

theorem setupTreeNew_eq (s : InflStream) :
    setupTreeNew s = s.scratchInput.bind scratchUpdate := by
  unfold setupTreeNew InflStream.scratchInput
  split
  · cases extractNewTree s <;> rfl
  · rfl

/- The scratch is written behind the header that stays. -/
theorem scratchUpdate_target
    {s s' : InflStream}
    (hUpdate : scratchUpdate s = some s') :
    s'.save.scratchTarget = s.save.scratchTarget := by
  unfold scratchUpdate at hUpdate
  simp only at hUpdate
  split at hUpdate
  · cases hUpdate
  · cases hUpdate
    rfl

/- So is the scratch that `setup_tree` leaves. -/
theorem setupTree_written
    {s s' : InflStream}
    (hMore : finalEob s.asv.inflStat = false)
    (hSetup : setupTree s = some s') :
    s.setupWrittenAt = some s'.save.scratchTarget := by
  unfold setupTree at hSetup
  rw [hMore, Bool.and_false, if_neg (by decide),
    setupTreeNew_eq] at hSetup
  rcases Option.bind_eq_some_iff.mp hSetup with
    ⟨s₁, hInput, hUpdate⟩
  unfold InflStream.setupWrittenAt
  rw [hMore, Bool.and_false, if_neg (by decide), hInput,
    Option.map_some, scratchUpdate_target hUpdate]

------------------------------------------------------------
-- One Update
------------------------------------------------------------

/-
  What is kept is in order, and the scratch starts at the
  offset `written`.
-/
structure Placed (written : Nat) (s : InflStream) : Prop where
  save : SaveOk s.save
  start : s.save.scratchStart = written

theorem Placed.congr
    {written : Nat}
    {s s' : InflStream}
    (hPlaced : Placed written s)
    (hSave : s'.save = s.save) :
    Placed written s' := by
  refine ⟨?_, ?_⟩
  · rw [hSave]
    exact hPlaced.save
  · rw [hSave]
    exact hPlaced.start

/-
  A response that is honest, or that says that nothing was
  processed, be there a header or not.
-/
structure HonestOrIdle (ex : InflExchange) : Prop where
  honest : ex.resp.processed ≠ 0 → HonestExchange ex
  nothing :
    ex.resp.processed = 0 → ex.resp.copyblockLen = 0

theorem HonestExchange.orIdle
    {ex : InflExchange}
    (hHonest : HonestExchange ex) : HonestOrIdle ex :=
  ⟨fun _ => hHonest, hHonest.nothing⟩

section Update

variable {s s' : InflStream} {ex : InflExchange} {rc : Rc}

/- A cut stored block keeps its header in the first word. -/
theorem Updated.restore_start
    (hUpdate : Updated s s')
    (hCut : s.cut = true →
      0 < s.stopHdrBits ∧ s.stopHdrBits ≤ 57) :
    (restoreStored s').save.scratchStart =
      s'.save.scratchStart := by
  have hAsv : s'.asv = (setupTreeEob s).asv :=
    (congrArg InflStream.asv hUpdate.strm :)
  have hSame : s'.cutStored = s.cut := by
    unfold InflStream.cut InflStream.cutStored
    rw [hAsv]
  by_cases hIs : s.cut = true
  · rcases hCut hIs with ⟨hSome, hWord⟩
    have hBits := hUpdate.treeBits
    have hHdrIb := hUpdate.save.hdrIb
    have hPad := hUpdate.save.padBits
    have hAligned := hUpdate.save.aligned
    have hWas : s'.save.scratchStart = 8 := by
      unfold SaveArea.scratchStart
      omega
    rw [hWas]
    unfold restoreStored
    rw [if_pos (hSame.trans hIs)]
    simp [SaveArea.scratchStart]
  · unfold restoreStored
    rw [hSame, if_neg hIs]

/- Collected input joins the scratch where it stands. -/
theorem collectScratch_placed
    (hOff : Offered s)
    (hNoCut : s.asv.copyblockLen = 0)
    (hCollect : collectScratch s = some (rc, s')) :
    Placed s.save.scratchStart s' := by
  have hRestore :
      ∀ t : InflStream, t.asv = s.asv →
        restoreStored t = t := by
    intro t hAsv
    unfold restoreStored InflStream.cutStored
    rw [hAsv, hNoCut]
    rfl
  have hSame : Placed s.save.scratchStart s :=
    ⟨hOff.save, rfl⟩
  unfold collectScratch at hCollect
  split at hCollect
  · cases hCollect
    exact hSame
  · split at hCollect
    · rw [hRestore s rfl] at hCollect
      cases hCollect
      exact hSame
    · split at hCollect
      · cases hCollect
      · rename_i hFits
        rw [hRestore] at hCollect
        · cases hCollect
          have hLen := hOff.len
          have hAligned := hOff.save.aligned
          have hWhole := hOff.save.whole
          unfold SaveArea.scratchStart
            SaveArea.scratchLen at hLen
          refine ⟨⟨⟨hOff.save.hdrIb, hOff.save.padBits,
            hAligned, hOff.save.empty, hOff.save.treeBits⟩,
            hOff.save.scratchIb, ?_, ?_⟩, rfl⟩
          · simp only
            omega
          · simp only
            omega
        · rfl

/-
  Behind an honest response before the end, the scratch stands
  where it was written or, with nothing processed, stays.
-/
theorem postScratchUpd_placed
    (pages : Bool → ByteMem)
    (hReq : Requesting s)
    (hParts : RequestParts s ex)
    (hHonest : HonestOrIdle ex)
    (hMore : finalEob ex.resp.inflStat = false)
    (hUpdate :
      postScratchUpd (s.answered pages ex.resp) =
        some (rc, s')) :
    Placed
      ((s.answered pages ex.resp).scratchWrittenAt.getD
        s.save.scratchStart) s' := by
  have hOff := hReq.offered pages ex.resp
  have hProc := processed_answered pages ex.resp s
  by_cases hNone : ex.resp.processed = 0
  · have hNoCut :
        (s.answered pages ex.resp).asv.copyblockLen = 0 :=
      hHonest.nothing hNone
    have hStart :
        (s.answered pages ex.resp).save.scratchStart =
          s.save.scratchStart := rfl
    rw [hNone] at hProc
    generalize s.answered pages ex.resp = t at *
    have hNot :
        ¬ (t.asv.inpProcessed ≠ 0 ∨
          t.asv.procBits ≠ 0) := by
      unfold InflStream.processed at hProc
      omega
    have hWritten : t.scratchWrittenAt = none := if_neg hNot
    unfold postScratchUpd at hUpdate
    rw [if_neg hNot] at hUpdate
    rw [hWritten, Option.getD_none, ← hStart]
    exact collectScratch_placed hOff hNoCut hUpdate
  · have hTold := hHonest.honest hNone
    rcases hTold.noted hParts hReq pages hNone
      (inpProcUpdate
        (s.answered pages ex.resp).asv.inpProcessed
        (s.answered pages ex.resp).asv.procBits
        (s.answered pages ex.resp).preScratchBits) with
      ⟨hOff', hAsv', hAns'⟩
    rw [← hProc] at hNone
    generalize s.answered pages ex.resp = t at *
    have hNoted :
        t.asv.inpProcessed ≠ 0 ∨ t.asv.procBits ≠ 0 := by
      unfold InflStream.processed at hNone
      omega
    have hWritten :
        t.scratchWrittenAt =
          { t with
            inDataUsed :=
              inpProcUpdate t.asv.inpProcessed
                t.asv.procBits
                t.preScratchBits }.setupWrittenAt :=
      if_pos hNoted
    unfold postScratchUpd at hUpdate
    rw [if_pos hNoted] at hUpdate
    rw [hWritten]
    generalize
      { t with
        inDataUsed :=
          inpProcUpdate t.asv.inpProcessed t.asv.procBits
            t.preScratchBits } = t' at *
    have hMore' : finalEob t'.asv.inflStat = false := by
      rw [hAns'.inflStat]
      exact hMore
    have hStored :
        t'.cut = true →
          0 < t'.stopHdrBits ∧ t'.stopHdrBits ≤ 57 := by
      rw [hAns'.cut, hAns'.stopHdrBits]
      exact hTold.stored
    cases hSetup : setupTree t' with
    | none =>
        rw [hSetup] at hUpdate
        cases hUpdate
    | some s₁ =>
        rw [hSetup] at hUpdate
        cases hUpdate
        have hUpdated :=
          setupTree_spec hOff' hAsv'
            (by rw [hMore', Bool.and_false]) hSetup
        refine ⟨(hUpdated.restore hStored).1.save, ?_⟩
        rw [setupTree_written hMore' hSetup,
          hUpdated.restore_start hStored, Option.getD_some,
          hUpdated.save.scratchTarget]

end Update

------------------------------------------------------------
-- A Whole Call
------------------------------------------------------------

/- The save area and the status of the latest response stay. -/
structure SaveStays (s s' : InflStream) : Prop where
  save : s'.save = s.save
  inflStat : s'.asv.inflStat = s.asv.inflStat
  eobSeen : s.eobSeen = true → s'.eobSeen = true

theorem SaveStays.refl (s : InflStream) : SaveStays s s :=
  ⟨rfl, rfl, id⟩

theorem SaveStays.trans
    {s s₁ s₂ : InflStream}
    (hFirst : SaveStays s s₁)
    (hNext : SaveStays s₁ s₂) : SaveStays s s₂ :=
  ⟨hNext.save.trans hFirst.save,
    hNext.inflStat.trans hFirst.inflStat,
    fun hSeen => hNext.eobSeen (hFirst.eobSeen hSeen)⟩

theorem SaveStays.inData
    {s s' : InflStream}
    (hStays : SaveStays s s')
    (hData : InData s') : InData s := by
  refine ⟨?_, ?_⟩
  · by_contra hSeen
    have hSeen' :=
      hStays.eobSeen ((Bool.not_eq_false _).mp hSeen)
    rw [hData.eobSeen] at hSeen'
    cases hSeen'
  · rw [← hStays.inflStat]
    exact hData.inflStat

theorem inflateEobSeen_stays (s : InflStream) :
    SaveStays s (inflateEobSeen s) := by
  refine ⟨?_, ?_, ?_⟩
  · unfold inflateEobSeen
    split <;> rfl
  · unfold inflateEobSeen
    split <;> rfl
  · intro hSeen
    unfold inflateEobSeen
    split
    · rfl
    · exact hSeen

theorem inflateTrailer_stays (s : InflStream) :
    SaveStays s (inflateTrailer s).2 := by
  rcases (inflateTrailer_passed s).1 with ⟨k, hPassed⟩
  rw [hPassed.strm]
  exact ⟨rfl, rfl, id⟩

theorem Flushed.stays
    {s s₁ : InflStream}
    {n : Nat}
    (hFlushed : Flushed s s₁ n) : SaveStays s s₁ := by
  rw [hFlushed.strm]
  exact ⟨rfl, rfl, id⟩

theorem HeaderPassed.stays
    {s s₁ : InflStream}
    {k : Nat}
    (hPassed : HeaderPassed s s₁ k) : SaveStays s s₁ := by
  rw [hPassed.strm]
  exact ⟨rfl, rfl, id⟩

/- Before a DDCB the save area is left alone. -/
theorem PrepareOutcome.stays
    {flush : Flush}
    {s : InflStream}
    {result : Sum (Rc × InflStream) InflStream}
    (hOutcome : PrepareOutcome flush s result) :
    SaveStays s (preparedInfl result) := by
  have hHeader :
      ∀ {s₁ s₂ : InflStream} {n : Nat} {rc : Rc},
        Flushed s s₁ n →
          HeaderDone flush s₁ s₂ rc → SaveStays s s₂ := by
    intro s₁ s₂ n rc hFlushed hDone
    rcases (inflateHeader_passed hDone).1 with ⟨k, hPassed⟩
    exact hFlushed.stays.trans hPassed.stays
  cases hOutcome with
  | tooLarge _ => exact .refl s
  | overrun _ _ => exact ⟨rfl, rfl, id⟩
  | trailer _ hFlushed _ =>
      exact (hFlushed.stays.trans
        (inflateEobSeen_stays _)).trans
          (inflateTrailer_stays _)
  | full _ hFlushed _ _ => exact hFlushed.stays
  | header _ hFlushed _ _ hDone _ =>
      exact hHeader hFlushed hDone
  | block _ hFlushed _ _ hDone _ =>
      exact hHeader hFlushed hDone
  | noInput _ hFlushed _ _ hDone _ _ _ =>
      exact hHeader hFlushed hDone
  | ready _ hFlushed _ _ hDone _ _ =>
      exact hHeader hFlushed hDone

/- A DDCB is only built before the end of the blocks. -/
theorem PrepareOutcome.inData
    {flush : Flush}
    {s s₁ : InflStream}
    (hOutcome : PrepareOutcome flush s (.inr s₁)) :
    InData s := by
  cases hOutcome with
  | ready _ hFlushed hData _ _ _ _ =>
      exact hFlushed.inData hData

/- A stream that builds a DDCB makes a request. -/
theorem PrepareOutcome.requesting
    {flush : Flush}
    {s s₁ : InflStream}
    (hOutcome : PrepareOutcome flush s (.inr s₁))
    (hSave : SaveOk s.save) :
    Requesting s₁ := by
  have hStays := hOutcome.stays
  have hSame : s₁.save = s.save := hStays.save
  cases hOutcome with
  | ready hSmall hFlushed _ _ hDone _ _ =>
      rcases (inflateHeader_passed hDone).1 with
        ⟨k, hPassed⟩
      have hStrm := hPassed.strm
      rw [hFlushed.strm] at hStrm
      have hNextIn : s₁.nextIn = s.nextIn.drop k :=
        (congrArg InflStream.nextIn hStrm :)
      have hOffs : s₁.inpDataOffs = 0 :=
        (congrArg InflStream.inpDataOffs hStrm :)
      refine ⟨?_, ?_, hOffs⟩
      · rw [hSame]
        exact hSave
      · unfold InflStream.availIn at hSmall ⊢
        rw [hNextIn, List.length_drop]
        omega

/- Behind it the results are checked, and the input passed. -/
theorem inflateCheck_stays
    (ex : InflExchange) (rc : Rc) (s : InflStream) :
    SaveStays s (inflateCheck ex rc s).2 := by
  have hFinish :
      ∀ s : InflStream, SaveStays s (inflateFinish s).2 := by
    intro s
    have hTaken :
        SaveStays s
          (inflateEobSeen (s.advance s.inpDataOffs)) :=
      @SaveStays.trans _ (s.advance s.inpDataOffs) _
        ⟨rfl, rfl, id⟩ (inflateEobSeen_stays _)
    unfold inflateFinish
    simp only
    split
    · exact hTaken.trans (inflateTrailer_stays _)
    · exact hTaken
  have hStore : SaveStays s (inflateStore ex s) :=
    ⟨rfl, rfl, id⟩
  unfold inflateCheck
  split
  · exact .refl s
  · split
    · exact .refl s
    · split
      · exact hStore
      · exact hStore.trans (hFinish _)

/-
  A call keeps the scratch where it was written; behind the
  final block there is nothing to keep.
-/
theorem zedcInflate_placed
    {flush : Flush}
    {env : InflateEnv}
    {s : InflStream}
    {ret : InflRet}
    {written : Nat}
    (hPlaced : InData s → Placed written s)
    (hHonest :
      ∀ ex, ret.exchange = some ex → HonestOrIdle ex)
    (hCall : zedcInflate flush env s = some ret)
    (hData : InData ret.strm) :
    Placed ((scratchWritten flush env s).getD written)
      ret.strm := by
  unfold zedcInflate at hCall
  cases hPrepare : inflatePrepare flush s with
  | none =>
      rw [hPrepare] at hCall
      cases hCall
  | some result =>
      have hOutcome := inflatePrepare_outcome hPrepare
      have hStays := hOutcome.stays
      rw [hPrepare] at hCall
      rcases result with ⟨rc, s₁⟩ | s₁
      · cases hCall
        have hNone : scratchWritten flush env s = none := by
          unfold scratchWritten
          rw [hPrepare]
        rw [hNone]
        exact (hPlaced (hStays.inData hData)).congr hStays.save
      · have hWritten :
            scratchWritten flush env s =
              match inflateExecute flush env s₁ with
              | (.done ex, s₂) =>
                  (getInflateAsv ex.resp s₂).scratchWrittenAt
              | _ => none := by
          unfold scratchWritten
          rw [hPrepare]
        cases inflateSubmit_outcome hCall with
        | @needDict s₂ hRun =>
            rcases inflateExecute_tried hRun with ⟨pages, rfl⟩
            rw [hWritten, hRun]
            have hOld : InData s :=
              hStays.inData ⟨hData.eobSeen, hData.inflStat⟩
            exact (hPlaced hOld).congr hStays.save
        | @failed s₂ hRun =>
            rcases inflateExecute_tried hRun with ⟨pages, rfl⟩
            rw [hWritten, hRun]
            have hOld : InData s :=
              hStays.inData ⟨hData.eobSeen, hData.inflStat⟩
            exact (hPlaced hOld).congr hStays.save
        | @done s₂ s₃ ex rc hRun hUpdate =>
            rw [hWritten, hRun]
            have hMade := (inflateExecute_done hRun).1
            rcases inflateExecute_tried hRun with ⟨pages, rfl⟩
            have hChecked := inflateCheck_stays ex rc s₃
            have hChanged := (postScratchUpd_changes hUpdate).1
            have hData₃ : InData s₃ := hChecked.inData hData
            have hMore : finalEob ex.resp.inflStat = false := by
              have hStat := hData₃.inflStat
              rw [hChanged.inflStat] at hStat
              exact hStat
            have hReady := hPlaced hOutcome.inData
            have hReq := hOutcome.requesting hReady.save
            have hParts := RequestOf.parts ⟨hMade⟩ hReq
            have hNew :=
              postScratchUpd_placed pages hReq hParts
                (hHonest ex rfl) hMore hUpdate
            have hOld : s₁.save.scratchStart = written := by
              have hSame : s₁.save = s.save := hStays.save
              rw [hSame]
              exact hReady.start
            rw [hOld] at hNew
            exact hNew.congr hChecked.save

end Zedc
