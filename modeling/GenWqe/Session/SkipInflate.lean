import GenWqe.Lib.Lockstep
import GenWqe.Session.Inflate

/-
  `ZEDC_FLG_SKIP_LAST_DICT` on an inflate stream, next to the
  same stream without it.

  Key definitions include:
    * `InflStream.plain`
    * `InflCard`
    * `inflateSkipFits`

  Main results:
    * `inflatePrepare_plain`, `postScratchUpd_plain`
    * `inflateSubmit_plain`
    * `inflate_lockstep`
-/

------------------------------------------------------------
-- The Plain Stream
------------------------------------------------------------

namespace Session

open Zedc Hardware

/-
  The stream without the flag, and with other contents of its
  dictionary pages.
-/
@[simps] def plain
    (pages : Bool → ByteMem) (s : InflStream) : InflStream :=
  { s with
    flgSkipLastDict := false
    dict := { s.dict with dict := pages } }

section Plain

variable (pages : Bool → ByteMem) (s : InflStream)

theorem inflateEobSeen_plain :
    inflateEobSeen (plain pages s) =
      plain pages (inflateEobSeen s) := by
  unfold inflateEobSeen
  simp only [plain_asv]
  split <;> rfl

/- One byte of a header. -/
theorem inflateRemHeaderByte_plain (b : UInt8) :
    inflateRemHeaderByte b (plain pages s) =
      (inflateRemHeaderByte b s).map
        (Prod.map id (plain pages)) := by
  unfold inflateRemHeaderByte
  simp only [plain_format, plain_prefx]
  split
  · cases inflateRemGzipHeader b (s.prefx.collect b) <;> rfl
  · cases (inflateRemZlibHeader (s.prefx.collect b)).dictid
      <;> rfl

theorem remHeaderLoop_plain (bs : List UInt8) :
    remHeaderLoop bs (plain pages s) =
      (remHeaderLoop bs s).map
        (Prod.map id (plain pages)) := by
  induction bs generalizing s with
  | nil => rfl
  | cons b rest ih =>
      unfold remHeaderLoop
      rw [inflateRemHeaderByte_plain]
      cases inflateRemHeaderByte b s with
      | none => rfl
      | some result =>
          rcases result with ⟨rc, s₁⟩
          cases rc with
          | needMoreData => exact ih s₁.passHeaderByte
          | ok | zlibNeedDict | error => rfl

theorem inflateHeader_plain (flush : Flush) :
    inflateHeader flush (plain pages s) =
      (inflateHeader flush s).map
        (Prod.map id (plain pages)) := by
  have hPrepare :
      remHeaderPrepare (plain pages s) =
        plain pages (remHeaderPrepare s) := by
    unfold remHeaderPrepare
    simp only [plain_prefx, plain_format]
    split <;> rfl
  unfold inflateHeader inflateFormatRemHeader
  simp only [plain_prefx, plain_format, plain_nextIn]
  rw [hPrepare, remHeaderLoop_plain]
  split
  · split
    · rfl
    · cases remHeaderLoop s.nextIn (remHeaderPrepare s) with
      | none => rfl
      | some result =>
          rcases result with ⟨rc, s₁⟩
          simp only [Option.map_some, Prod.map_apply, id_eq]
          split <;> rfl
  · rfl

/- The trailer. -/
theorem checkCrc32_plain :
    checkCrc32 (plain pages s) =
      Prod.map id (plain pages) (checkCrc32 s) := by
  unfold checkCrc32
  simp only [plain_postfx, plain_crc32]
  split <;> rfl

theorem checkTrailer_plain :
    checkTrailer (plain pages s) =
      Prod.map id (plain pages) (checkTrailer s) := by
  unfold checkTrailer
  simp only [plain_format]
  split
  · exact checkCrc32_plain pages
      { s with
        postfx :=
          { s.postfx with
            fileSize := readLe32 s.postfx.bytes 4 } }
  · simp only [plain_postfx, plain_adler32]
    split <;> rfl

theorem trailerChecks_plain :
    trailerChecks (plain pages s) =
      Prod.map id (plain pages) (trailerChecks s) := by
  have hBehind :
      ∀ s₁ : InflStream,
        (if (plain pages s₁).postfx.idx ≥
            (plain pages s₁).postfx.len then
          checkTrailer (plain pages s₁)
        else (none, plain pages s₁)) =
          Prod.map id (plain pages)
            (if s₁.postfx.idx ≥ s₁.postfx.len then
              checkTrailer s₁
            else (none, s₁)) := by
    intro s₁
    simp only [plain_postfx]
    split
    · exact checkTrailer_plain pages s₁
    · rfl
  unfold trailerChecks
  by_cases hEarly : s.postfx.idx = 4 ∧ s.format = .gzip
  · simp only [plain_postfx, plain_format, if_pos hEarly]
    rw [checkCrc32_plain]
    rcases checkCrc32 s with ⟨_ | rc, s₁⟩
    · exact hBehind s₁
    · rfl
  · simp only [plain_postfx, plain_format, if_neg hEarly]
    exact hBehind s

theorem remTrailerLoop_plain (bs : List UInt8) :
    remTrailerLoop bs (plain pages s) =
      Prod.map id (plain pages) (remTrailerLoop bs s) := by
  induction bs generalizing s with
  | nil => rfl
  | cons b rest ih =>
      unfold remTrailerLoop
      simp only [plain_postfx]
      split
      · have hByte :
            (plain pages s).takeTrailerByte b =
              plain pages (s.takeTrailerByte b) := rfl
        rw [hByte, trailerChecks_plain]
        rcases trailerChecks (s.takeTrailerByte b) with
          ⟨_ | rc, s₁⟩
        · exact ih s₁
        · rfl
      · rfl

theorem inflateTrailer_plain :
    inflateTrailer (plain pages s) =
      Prod.map id (plain pages) (inflateTrailer s) := by
  have hPrepare :
      remTrailerPrepare (plain pages s) =
        plain pages (remTrailerPrepare s) := by
    unfold remTrailerPrepare
    simp only [plain_postfx, plain_format]
    split <;> rfl
  unfold inflateTrailer inflateFormatRemTrailer
  simp only [plain_format]
  rw [hPrepare, plain_nextIn, remTrailerLoop_plain]
  by_cases hDefl : s.format = .defl
  · simp only [if_pos hDefl, plain_dict_obytesInDict]
    split <;> rfl
  · simp only [if_neg hDefl]
    rcases remTrailerLoop (remTrailerPrepare s).nextIn
      (remTrailerPrepare s) with ⟨_ | rc, s₁⟩
    · simp only [Prod.map_apply, id_eq, plain_postfx]
      by_cases hWhole : s₁.postfx.idx = s₁.postfx.len
      · simp only [if_pos hWhole, plain_dict_obytesInDict]
        split <;> rfl
      · simp only [if_neg hWhole]
        rfl
    · rfl

/- Pending output goes out the same, where it is the same. -/
theorem inflateFlushOutputBuffer_plain
    (hPending :
      (plain pages s).dict.pending = s.dict.pending) :
    inflateFlushOutputBuffer (plain pages s) =
      Prod.map id (plain pages)
        (inflateFlushOutputBuffer s) := by
  unfold inflateFlushOutputBuffer
  rw [hPending]
  simp only [plain_dict_obytesInDict, plain_dict_dictLen,
    plain_availOut, plain_nextOut, plain_totalOut]
  split
  · rfl
  · split <;> rfl

theorem inflatePrefix_plain (flush : Flush) :
    inflatePrefix flush (plain pages s) =
      (inflatePrefix flush s).map
        (Sum.map (Prod.map id (plain pages))
          (plain pages)) := by
  unfold inflatePrefix
  rw [inflateHeader_plain]
  cases inflateHeader flush s with
  | none => rfl
  | some result =>
      rcases result with ⟨rc, s₁⟩
      have hRet :
          inflateChkRet (plain pages s₁) =
            inflateChkRet s₁ := rfl
      have hIn : (plain pages s₁).availIn = s₁.availIn := rfl
      simp only [Option.map_some, Prod.map_apply, id_eq,
        plain_dataType80, plain_save, hRet, hIn]
      split
      · rfl
      · split
        · rfl
        · split <;> rfl

theorem inflatePrepare_plain
    (flush : Flush)
    (hPending :
      (plain pages s).dict.pending = s.dict.pending) :
    inflatePrepare flush (plain pages s) =
      (inflatePrepare flush s).map
        (Sum.map (Prod.map id (plain pages))
          (plain pages)) := by
  have hFlush :
      inflateFlushOutputBuffer
          { plain pages s with inpDataOffs := 0 } =
        Prod.map id (plain pages)
          (inflateFlushOutputBuffer
            { s with inpDataOffs := 0 }) :=
    inflateFlushOutputBuffer_plain pages
      { s with inpDataOffs := 0 } hPending
  have hIn : (plain pages s).availIn = s.availIn := rfl
  unfold inflatePrepare
  rw [hFlush, hIn]
  split
  · rfl
  rcases inflateFlushOutputBuffer
    { s with inpDataOffs := 0 } with ⟨rc, s₁⟩
  simp only [Prod.map_apply, id_eq]
  split
  · rfl
  rw [inflateEobSeen_plain]
  generalize inflateEobSeen s₁ = s₂
  unfold inflateEntry
  simp only [plain_eobSeen, plain_availOut]
  split
  · rw [inflateTrailer_plain]
    rfl
  · split
    · rfl
    · exact inflatePrefix_plain pages s₂ flush

/- The save area is brought up to date. -/
theorem scratchUpdate_plain :
    scratchUpdate (plain pages s) =
      (scratchUpdate s).map (plain pages) := by
  have hTake :
      (plain pages s).scratchTake = s.scratchTake := rfl
  have hSrc :
      (plain pages s).scratchSrcOffs = s.scratchSrcOffs := rfl
  have hOffs :
      (plain pages s).scratchOffs = s.scratchOffs := rfl
  have hCopy :
      ∀ target cnt srcOffs,
        copyBehindTree (plain pages s) target cnt srcOffs =
          copyBehindTree s target cnt srcOffs :=
    fun _ _ _ => rfl
  unfold scratchUpdate
  simp only [hTake, hSrc, hOffs, hCopy, plain_save]
  cases copyBehindTree s s.save.scratchTarget
    s.scratchTake.1 s.scratchSrcOffs <;> rfl

theorem setupTreeNew_plain :
    setupTreeNew (plain pages s) =
      (setupTreeNew s).map (plain pages) := by
  have hNew : (plain pages s).newHeader = s.newHeader := rfl
  have hExtract :
      extractNewTree (plain pages s) =
        (extractNewTree s).map (plain pages) := by
    have hTree : (plain pages s).treeCopy = s.treeCopy := rfl
    have hOffs : (plain pages s).hdrOffs = s.hdrOffs := rfl
    have hCopy :
        ∀ target cnt srcOffs,
          copyBehindTree (plain pages s) target cnt
              srcOffs =
            copyBehindTree s target cnt srcOffs :=
      fun _ _ _ => rfl
    unfold extractNewTree
    simp only [hTree, hOffs, hCopy, plain_save, plain_asv]
    cases copyBehindTree s s.treeCopy.1 s.treeCopy.2.1
      s.treeCopy.2.2 <;> rfl
  unfold setupTreeNew
  rw [hNew, hExtract]
  split
  · cases extractNewTree s with
    | none => rfl
    | some s₁ => exact scratchUpdate_plain pages s₁
  · exact scratchUpdate_plain pages s

theorem setupTree_plain :
    setupTree (plain pages s) =
      (setupTree s).map (plain pages) := by
  have hEob :
      setupTreeEob (plain pages s) =
        plain pages (setupTreeEob s) := by
    unfold setupTreeEob
    simp only [plain_asv]
    split
    · split <;> rfl
    · rfl
  unfold setupTree
  rw [hEob]
  simp only [plain_asv]
  split
  · rfl
  · exact setupTreeNew_plain pages _

theorem postScratchUpd_plain :
    postScratchUpd (plain pages s) =
      (postScratchUpd s).map
        (Prod.map id (plain pages)) := by
  have hStored :
      ∀ s₁ : InflStream,
        restoreStored (plain pages s₁) =
          plain pages (restoreStored s₁) := by
    intro s₁
    have hCut : (plain pages s₁).cutStored = s₁.cutStored :=
      rfl
    unfold restoreStored
    rw [hCut]
    split <;> rfl
  have hUsed :
      ∀ s₁,
        s₁ = plain pages s →
          { s₁ with
            inDataUsed :=
              inpProcUpdate s₁.asv.inpProcessed
                s₁.asv.procBits s₁.preScratchBits } =
            plain pages
              { s with
                inDataUsed :=
                  inpProcUpdate s.asv.inpProcessed
                    s.asv.procBits s.preScratchBits } := by
    rintro _ rfl
    rfl
  have hIn : (plain pages s).availIn = s.availIn := rfl
  have hAsv : (plain pages s).asv = s.asv := rfl
  unfold postScratchUpd
  rw [hUsed _ rfl, hAsv]
  split
  · rw [setupTree_plain]
    cases setupTree
      { s with
        inDataUsed :=
          inpProcUpdate s.asv.inpProcessed s.asv.procBits
            s.preScratchBits } with
    | none => rfl
    | some s₁ =>
        exact congrArg (fun s => some (Rc.ok, s))
          (hStored s₁)
  · unfold collectScratch
    simp only [hIn, plain_inHdrScratchLen]
    split
    · rfl
    · split
      · exact congrArg (fun s => some (Rc.ok, s)) (hStored s)
      · split
        · rfl
        · exact congrArg (fun s => some (Rc.ok, s))
            (hStored
              { s with
                inpDataOffs := s.inpDataOffs + s.availIn
                save :=
                  { s.save with
                    tree :=
                      s.save.tree.store s.inHdrScratchLen
                        s.nextIn
                    scratchBits :=
                      s.save.scratchBits +
                        s.availIn * 8 } })

/- The checks of the results. -/
theorem inflateCheck_plain (ex : InflExchange) (rc : Rc) :
    inflateCheck ex rc (plain pages s) =
      Prod.map id (plain pages) (inflateCheck ex rc s) := by
  have hIn : (plain pages s).availIn = s.availIn := rfl
  have hStore :
      inflateStore ex (plain pages s) =
        plain pages (inflateStore ex s) := rfl
  have hFinish :
      ∀ s₁ : InflStream,
        inflateFinish (plain pages s₁) =
          Prod.map id (plain pages) (inflateFinish s₁) := by
    intro s₁
    have hTaken :
        (plain pages s₁).advance
            (plain pages s₁).inpDataOffs =
          plain pages (s₁.advance s₁.inpDataOffs) := rfl
    unfold inflateFinish
    rw [hTaken, inflateEobSeen_plain]
    simp only [plain_eobSeen]
    split
    · exact inflateTrailer_plain pages _
    · rfl
  unfold inflateCheck
  rw [hIn, hStore, hFinish]
  simp only [plain_asv, plain_availOut, plain_inpDataOffs]
  split
  · rfl
  · split
    · rfl
    · split <;> rfl

end Plain

------------------------------------------------------------
-- The Card
------------------------------------------------------------

/-
  A card whose answer is a function of the request, and the
  same whether the dictionary is saved or not, apart from the
  page that is then not written.
-/
structure InflCard (card : InflReq → InflResp) : Prop where
  blind :
    ∀ req, req.saveDict = true →
      { card { req with saveDict := false, outDictLen := 0 }
        with outDict := (card req).outDict } = card req

/- Each of the tries is made on this card. -/
def onCard (card : InflReq → InflResp) : InflateEnv where
  accel := fun _ => card

/-
  A first try without the dictionary that fails would not have
  written it, and one that ends the stream leaves no output in
  it.
-/
def inflateSkipFits
    (card : InflReq → InflResp)
    (flush : Flush)
    (s : InflStream) : Prop :=
  inflateSkipLastDict flush s = true →
    ((card (inflateRequest s)).needDict = true ∨
        (card (inflateRequest s)).failed = true →
      (card (inflateRequest s)).outDict =
        s.dict.dict (!s.dict.wspPage)) ∧
    (finalEob (card (inflateRequest s)).inflStat = true →
      (card (inflateRequest s)).obytesInDict = 0)

/-
  The final block was seen and no output waits in the
  dictionary, which is not looked at any more.
-/
structure Over (s : InflStream) : Prop where
  drained : s.dict.obytesInDict = 0
  seen : (inflateEobSeen s).eobSeen = true

/- The stream without the flag next to the one with it. -/
def Mirrors (s t : InflStream) : Prop :=
  t = plain s.dict.dict s ∨
    Over s ∧ ∃ pages, t = plain pages s

/- What the tries come to, with and without the flag. -/
inductive SameExec (s t : InflStream) :
    InflExec → InflExec → Prop
  | needDict :
      t = plain s.dict.dict s →
      SameExec s t .needDict .needDict
  | failed :
      t = plain s.dict.dict s →
      SameExec s t .failed .failed
  | done
      {ex ex' : InflExchange} {pages : Bool → ByteMem} :
      t = plain pages s →
      { ex'.resp with outDict := ex.resp.outDict } = ex.resp →
      pages = s.dict.dict ∨
        finalEob ex.resp.inflStat = true ∧
          ex.resp.obytesInDict = 0 →
      SameExec s t (.done ex) (.done ex')

section Card

variable {card : InflReq → InflResp}
variable {flush : Flush} {s : InflStream}

/- Leaving the dictionary out changes nothing else. -/
theorem inflateTry_blind
    (hCard : InflCard card)
    (s : InflStream) :
    ∃ outDict,
      card
          { inflateRequest s with
            saveDict := false
            outDictLen := 0 } =
        { card (inflateRequest s) with outDict := outDict } := by
  have hSame := hCard.blind (inflateRequest s) rfl
  refine ⟨(card
    { inflateRequest s with
      saveDict := false
      outDictLen := 0 }).outDict, ?_⟩
  rw [← hSame]

/- Writing what is there already changes nothing. -/
theorem inflateSaveDict_same
    {req : InflReq}
    {resp : InflResp}
    (hSame :
      resp.outDict = s.dict.dict s.dict.wspPage) :
    (inflateSaveDict req resp s).dict.dict =
      s.dict.dict := by
  unfold inflateSaveDict
  split
  · funext page
    show
      (if page = s.dict.wspPage then resp.outDict
        else s.dict.dict page) = s.dict.dict page
    split
    · rename_i hPage
      rw [hSame, hPage]
    · rfl
  · rfl

theorem inflateExecute_plain
    (hCard : InflCard card)
    (hFits : inflateSkipFits card flush s) :
    SameExec
      (inflateExecute flush (onCard card) s).2
      (inflateExecute flush (onCard card)
        (plain s.dict.dict s)).2
      (inflateExecute flush (onCard card) s).1
      (inflateExecute flush (onCard card)
        (plain s.dict.dict s)).1 := by
  have hPlain :
      inflateExecute flush (onCard card)
          (plain s.dict.dict s) =
        (inflateTry (inflateRequest s)
            (card (inflateRequest s)),
          plain
            (inflateSaveDict (inflateRequest s)
              (card (inflateRequest s))
              (setInflateAsiv s)).dict.dict
            (setInflateAsiv s)) := rfl
  have hSaved :
      plain
          (inflateSaveDict (inflateRequest s)
            (card (inflateRequest s))
            (setInflateAsiv s)).dict.dict
          (inflateSaveDict (inflateRequest s)
            (card (inflateRequest s)) (setInflateAsiv s)) =
        plain
          (inflateSaveDict (inflateRequest s)
            (card (inflateRequest s))
            (setInflateAsiv s)).dict.dict
          (setInflateAsiv s) := rfl
  rw [hPlain]
  -- a request that saves the dictionary is the same in both
  have hFull :
      SameExec
        (inflateSaveDict (inflateRequest s)
          (card (inflateRequest s)) (setInflateAsiv s))
        (plain
          (inflateSaveDict (inflateRequest s)
            (card (inflateRequest s))
            (setInflateAsiv s)).dict.dict
          (setInflateAsiv s))
        (inflateTry (inflateRequest s)
          (card (inflateRequest s)))
        (inflateTry (inflateRequest s)
          (card (inflateRequest s))) := by
    unfold inflateTry
    split
    · exact .needDict hSaved.symm
    · split
      · exact .failed hSaved.symm
      · exact .done hSaved.symm rfl (Or.inl rfl)
  unfold inflateExecute
  by_cases hSkip : inflateSkipLastDict flush s = true
  swap
  · simp only [hSkip]
    exact hFull
  simp only [hSkip, if_true]
  rcases inflateTry_blind hCard s with ⟨outDict, hFirst⟩
  rcases hFits hSkip with ⟨hFailing, hFinal⟩
  have hAnswer :
      (onCard card).accel 0
          { inflateRequest s with
            saveDict := false
            outDictLen := 0 } =
        { card (inflateRequest s) with
          outDict := outDict } := hFirst
  have hUnwritten :
      (card (inflateRequest s)).needDict = true ∨
          (card (inflateRequest s)).failed = true →
        plain
            (inflateSaveDict (inflateRequest s)
              (card (inflateRequest s))
              (setInflateAsiv s)).dict.dict
            (setInflateAsiv s) =
          plain (setInflateAsiv s).dict.dict
            (setInflateAsiv s) :=
    fun hFails =>
      congrArg (plain · (setInflateAsiv s))
        (inflateSaveDict_same (hFailing hFails))
  rw [hAnswer]
  unfold inflateTry at hFull ⊢
  by_cases hNeed : (card (inflateRequest s)).needDict = true
  · have hNeed' :
        ({ card (inflateRequest s) with
          outDict := outDict } : InflResp).needDict =
            true := hNeed
    rw [if_pos hNeed, if_pos hNeed']
    exact .needDict (hUnwritten (Or.inl hNeed))
  have hNeed' :
      ¬ ({ card (inflateRequest s) with
        outDict := outDict } : InflResp).needDict =
          true := hNeed
  rw [if_neg hNeed] at hFull ⊢
  rw [if_neg hNeed']
  by_cases hFail : (card (inflateRequest s)).failed = true
  · have hFail' :
        ({ card (inflateRequest s) with
          outDict := outDict } : InflResp).failed =
            true := hFail
    rw [if_pos hFail, if_pos hFail']
    exact .failed (hUnwritten (Or.inr hFail))
  have hFail' :
      ¬ ({ card (inflateRequest s) with
        outDict := outDict } : InflResp).failed =
          true := hFail
  rw [if_neg hFail] at hFull ⊢
  rw [if_neg hFail']
  simp only
  by_cases hEnd :
      finalEob (card (inflateRequest s)).inflStat = true
  · rw [if_pos hEnd]
    exact .done rfl rfl (Or.inr ⟨hEnd, hFinal hEnd⟩)
  · -- the repeated request is the one of the plain stream
    rw [if_neg hEnd]
    have hAgain :
        (onCard card).accel 1 (inflateRequest s) =
          card (inflateRequest s) := rfl
    rw [hAgain, if_neg hNeed, if_neg hFail]
    exact hFull

/- The checks touch neither dictionary nor results. -/
theorem inflateCheck_keeps
    (ex : InflExchange) (rc : Rc) (s : InflStream) :
    (inflateCheck ex rc s).2.dict = s.dict ∧
      (inflateCheck ex rc s).2.asv = s.asv := by
  have hSeen :
      ∀ s₁ : InflStream,
        (inflateEobSeen s₁).dict = s₁.dict ∧
          (inflateEobSeen s₁).asv = s₁.asv := by
    intro s₁
    unfold inflateEobSeen
    split <;> exact ⟨rfl, rfl⟩
  have hFinish :
      ∀ s₁ : InflStream,
        (inflateFinish s₁).2.dict = s₁.dict ∧
          (inflateFinish s₁).2.asv = s₁.asv := by
    intro s₁
    have hTaken := hSeen (s₁.advance s₁.inpDataOffs)
    unfold inflateFinish
    simp only
    split
    · rcases (inflateTrailer_passed
        (inflateEobSeen
          (s₁.advance s₁.inpDataOffs))).1 with ⟨k, hPassed⟩
      rw [hPassed.strm]
      exact hTaken
    · exact hTaken
  unfold inflateCheck
  split
  · exact ⟨rfl, rfl⟩
  · split
    · exact ⟨rfl, rfl⟩
    · split
      · exact ⟨rfl, rfl⟩
      · exact hFinish (inflateStore ex s)

/- Answers that differ in the dictionary are used the same. -/
theorem inflateAnswered_plain
    {ex ex' : InflExchange}
    {pages : Bool → ByteMem}
    (hSame :
      { ex'.resp with outDict := ex.resp.outDict } =
        ex.resp)
    (s : InflStream) :
    getInflateAsv ex'.resp (plain pages s) =
        plain pages (getInflateAsv ex.resp s) ∧
      ∀ rc s₁,
        inflateCheck ex' rc s₁ = inflateCheck ex rc s₁ := by
  have hBuff : ex'.resp.outBuff = ex.resp.outBuff :=
    (congrArg InflResp.outBuff hSame :)
  constructor
  · rw [← hSame]
    rfl
  · intro rc s₁
    have hStore : inflateStore ex' s₁ = inflateStore ex s₁ := by
      unfold inflateStore
      rw [hBuff]
    unfold inflateCheck
    rw [hStore]

/- Two calls that return the same, and streams that mirror. -/
def SameRet (a b : InflRet) : Prop :=
  a.rc = b.rc ∧ Mirrors a.strm b.strm

theorem inflateSubmit_plain
    (hCard : InflCard card)
    (hFits : inflateSkipFits card flush s) :
    Option.Rel SameRet
      (inflateSubmit flush (onCard card) s)
      (inflateSubmit flush (onCard card)
        (plain s.dict.dict s)) := by
  have hExec := inflateExecute_plain hCard hFits
  unfold inflateSubmit
  generalize inflateExecute flush (onCard card) s = a at *
  generalize
    inflateExecute flush (onCard card)
      (plain s.dict.dict s) = b at *
  rcases a with ⟨e, s₁⟩
  rcases b with ⟨e', t₁⟩
  cases hExec with
  | needDict hPlain =>
      change t₁ = plain s₁.dict.dict s₁ at hPlain
      subst hPlain
      exact .some ⟨rfl, Or.inl rfl⟩
  | failed hPlain =>
      change t₁ = plain s₁.dict.dict s₁ at hPlain
      subst hPlain
      exact .some ⟨rfl, Or.inl rfl⟩
  | @done ex ex' pages hPlain hSame hPages =>
      change t₁ = plain pages s₁ at hPlain
      change pages = s₁.dict.dict ∨ _ at hPages
      subst hPlain
      rcases inflateAnswered_plain hSame s₁ with
        ⟨hAsv, hCheck⟩
      simp only
      rw [hAsv, postScratchUpd_plain]
      cases hUpdate :
          postScratchUpd (getInflateAsv ex.resp s₁) with
      | none => exact .none
      | some result =>
          rcases result with ⟨rc, s₂⟩
          have hChanged := (postScratchUpd_changes hUpdate).1
          rcases inflateCheck_keeps ex rc s₂ with
            ⟨hDict, hAsv₂⟩
          simp only [Option.map_some, Prod.map_apply, id_eq,
            hCheck, inflateCheck_plain]
          refine .some ⟨rfl, ?_⟩
          have hDict₂ :
              s₂.dict = (getInflateAsv ex.resp s₁).dict :=
            (congrArg InflStream.dict hChanged.strm :)
          rcases hPages with hEqual | ⟨hFinal, hDrained⟩
          · left
            show plain pages _ = plain _ _
            rw [hDict, hDict₂, hEqual]
            rfl
          · right
            refine ⟨⟨?_, ?_⟩, pages, rfl⟩
            · show (inflateCheck ex rc s₂).2.dict.obytesInDict = 0
              rw [hDict, hDict₂]
              show ex.resp.obytesInDict.toNat = 0
              rw [hDrained]
              rfl
            · show
                (inflateEobSeen
                  (inflateCheck ex rc s₂).2).eobSeen = true
              have hStat :
                  finalEob
                    (inflateCheck ex rc s₂).2.asv.inflStat =
                      true := by
                rw [hAsv₂, hChanged.inflStat]
                exact hFinal
              unfold inflateEobSeen
              rw [if_pos hStat]

/- An end that was seen stays seen. -/
theorem eobSeen_stays
    (hSeen : s.eobSeen = true) :
    (inflateEobSeen s).eobSeen = true := by
  unfold inflateEobSeen
  split
  · rfl
  · exact hSeen

theorem Over.congr
    {s' : InflStream}
    (hOver : Over s)
    (hDict : s'.dict.obytesInDict = s.dict.obytesInDict)
    (hAsv : s'.asv = s.asv)
    (hEob : s'.eobSeen = s.eobSeen) : Over s' := by
  refine ⟨hDict.trans hOver.drained, ?_⟩
  have hSeen := hOver.seen
  unfold inflateEobSeen at hSeen ⊢
  rw [hAsv]
  split
  · rfl
  · rename_i hStat
    rw [if_neg hStat] at hSeen
    exact hEob.trans hSeen

/- Once all is over no DDCB follows. -/
theorem Over.prepare
    {result : Sum (Rc × InflStream) InflStream}
    (hOver : Over s)
    (hPrepare : inflatePrepare flush s = some result) :
    ∃ rc s₁, result = .inl (rc, s₁) ∧ Over s₁ := by
  have hGiven :
      ∀ {s₁ n}, Flushed s s₁ n → Over s₁ := by
    intro s₁ n hFlushed
    rw [Flushed.drained hFlushed hOver.drained]
    exact hOver.congr rfl rfl rfl
  have hNotData :
      ∀ {s₁ n}, Flushed s s₁ n → ¬ InData s₁ := by
    intro s₁ n hFlushed hData
    have hSeen := (hGiven hFlushed).seen
    rw [eobSeen_of_inData hData] at hSeen
    cases hSeen
  cases inflatePrepare_outcome hPrepare with
  | tooLarge _ => exact ⟨_, _, rfl, hOver⟩
  | overrun _ hLess =>
      rw [hOver.drained] at hLess
      exact absurd hLess (Nat.not_lt_zero _)
  | @trailer s₁ n _ hFlushed hEob =>
      refine ⟨(inflateTrailer (inflateEobSeen s₁)).1,
        (inflateTrailer (inflateEobSeen s₁)).2, rfl, ?_, ?_⟩
      · rw [inflateTrailer_dict]
        exact (hGiven hFlushed).drained
      · rcases (inflateTrailer_passed
          (inflateEobSeen s₁)).1 with ⟨k, hPassed⟩
        have hKept :
            (inflateTrailer (inflateEobSeen s₁)).2.eobSeen =
              true := by
          rw [hPassed.strm]
          exact hEob
        exact eobSeen_stays hKept
  | full _ hFlushed hData _ =>
      exact absurd hData (hNotData hFlushed)
  | header _ hFlushed hData _ _ _ =>
      exact absurd hData (hNotData hFlushed)
  | block _ hFlushed hData _ _ _ =>
      exact absurd hData (hNotData hFlushed)
  | noInput _ hFlushed hData _ _ =>
      exact absurd hData (hNotData hFlushed)
  | ready _ hFlushed hData _ _ _ _ =>
      exact absurd hData (hNotData hFlushed)

/- A call with the flag, and the same call without it. -/
theorem zedcInflate_mirrors
    {t : InflStream}
    (hCard : InflCard card)
    (hMirrors : Mirrors s t)
    (hFits :
      ∀ s₁, inflatePrepare flush s = some (.inr s₁) →
        inflateSkipFits card flush s₁) :
    Option.Rel SameRet
      (zedcInflate flush (onCard card) s)
      (zedcInflate flush (onCard card) t) := by
  rcases hMirrors with rfl | ⟨hOver, pages, rfl⟩
  · have hPrepare :=
      inflatePrepare_plain s.dict.dict s flush rfl
    unfold zedcInflate
    rw [hPrepare]
    cases hResult : inflatePrepare flush s with
    | none => exact .none
    | some result =>
        have hKept := inflatePrepare_dictKept hResult
        cases result with
        | inl result =>
            rcases result with ⟨rc, s₁⟩
            have hPages : s.dict.dict = s₁.dict.dict :=
              hKept.dict.symm
            rw [hPages]
            exact .some ⟨rfl, Or.inl rfl⟩
        | inr s₁ =>
            have hPages : s.dict.dict = s₁.dict.dict :=
              hKept.dict.symm
            rw [hPages]
            exact inflateSubmit_plain hCard
              (hFits s₁ hResult)
  · have hPending :
        (plain pages s).dict.pending = s.dict.pending := by
      unfold DictArea.pending
      rw [hOver.drained, plain_dict_obytesInDict,
        hOver.drained]
      rfl
    unfold zedcInflate
    rw [inflatePrepare_plain pages s flush hPending]
    cases hResult : inflatePrepare flush s with
    | none => exact .none
    | some result =>
        rcases hOver.prepare hResult with
          ⟨rc, s₁, rfl, hOver₁⟩
        exact .some ⟨rfl, Or.inr ⟨hOver₁, pages, rfl⟩⟩

end Card

------------------------------------------------------------
-- Runs
------------------------------------------------------------

/- What the caller of an inflate stream asks for. -/
inductive InflateInput where
  | inflate (nextIn : List UInt8) (availOut : Nat)
      (flush : Flush)
  | setDictionary (dictionary : List UInt8)
  | getHeader (head : GzedcHeader)

/- The call that this is, on a card. -/
def InflateInput.op
    (card : InflReq → InflResp) : InflateInput → InflateOp
  | .inflate nextIn availOut flush =>
      .inflate ⟨nextIn, availOut, flush, onCard card⟩
  | .setDictionary dictionary => .setDictionary dictionary
  | .getHeader head => .getHeader head

/- The dictionary that the DDCB of a call is given. -/
def ddcbInDict
    (flush : Flush) (s : InflStream) : Option (List UInt8) :=
  match inflatePrepare flush s with
  | some (.inr s₁) =>
      some ((inflateRequest s₁).inDict.window 0
        (inflateRequest s₁).inDictLen)
  | _ => none

def inflateInDict (s : InflStream) :
    InflateInput → Option (List UInt8)
  | .inflate nextIn availOut flush =>
      ddcbInDict flush
        { s with nextIn := nextIn, availOut := availOut }
  | _ => none

/-
  What a call shows: its return code, all output and input so
  far, the output that waits in the dictionary, and the
  dictionary that a DDCB was given.
-/
structure InflateShown where
  rc : Rc
  nextOut : List UInt8
  totalIn : Nat
  pending : List UInt8
  inDict : Option (List UInt8)

def inflateShown
    (s : InflStream)
    (i : InflateInput)
    (ret : Rc × InflStream) : InflateShown × InflStream :=
  (⟨ret.1, ret.2.nextOut, ret.2.totalIn,
    ret.2.dict.pending, inflateInDict s i⟩, ret.2)

def inflateShow
    (card : InflReq → InflResp)
    (s : InflStream)
    (i : InflateInput) :
    Option (InflateShown × InflStream) :=
  ((i.op card).run s).map (inflateShown s i)

/- Leaving the dictionary out does no harm in a call. -/
def InflateHarmless
    (card : InflReq → InflResp)
    (s : InflStream) : InflateInput → Prop
  | .inflate nextIn availOut flush =>
      ∀ s₁,
        inflatePrepare flush
            { s with nextIn := nextIn, availOut := availOut } =
          some (.inr s₁) → inflateSkipFits card flush s₁
  | _ => True

section Runs

variable {card : InflReq → InflResp}
variable {s t : InflStream}

theorem Mirrors.pending
    (hMirrors : Mirrors s t) :
    t.dict.pending = s.dict.pending := by
  rcases hMirrors with rfl | ⟨hOver, pages, rfl⟩
  · rfl
  · unfold DictArea.pending
    rw [hOver.drained, plain_dict_obytesInDict,
      hOver.drained]
    rfl

theorem Mirrors.shown
    (hMirrors : Mirrors s t) :
    t.nextOut = s.nextOut ∧ t.totalIn = s.totalIn := by
  rcases hMirrors with rfl | ⟨_, pages, rfl⟩ <;>
    exact ⟨rfl, rfl⟩

theorem Mirrors.offer
    (hMirrors : Mirrors s t)
    (nextIn : List UInt8)
    (availOut : Nat) :
    Mirrors
      { s with nextIn := nextIn, availOut := availOut }
      { t with nextIn := nextIn, availOut := availOut } := by
  rcases hMirrors with rfl | ⟨hOver, pages, rfl⟩
  · exact Or.inl rfl
  · exact Or.inr ⟨hOver.congr rfl rfl rfl, pages, rfl⟩

/- The dictionary of a DDCB is the same without the flag. -/
theorem Mirrors.ddcbInDict
    (hMirrors : Mirrors s t)
    (flush : Flush) :
    ddcbInDict flush t = ddcbInDict flush s := by
  have hPending := hMirrors.pending
  unfold Session.ddcbInDict
  rcases hMirrors with rfl | ⟨hOver, pages, rfl⟩
  · rw [inflatePrepare_plain _ _ flush hPending]
    cases hResult : inflatePrepare flush s with
    | none => rfl
    | some result =>
        have hKept := inflatePrepare_dictKept hResult
        cases result with
        | inl result => rfl
        | inr s₁ =>
            have hPages : s₁.dict.dict = s.dict.dict :=
              hKept.dict
            simp only [Option.map_some, Sum.map_inr]
            rw [← hPages]
            rfl
  · rw [inflatePrepare_plain _ _ flush hPending]
    cases hResult : inflatePrepare flush s with
    | none => rfl
    | some result =>
        rcases hOver.prepare hResult with ⟨rc, s₁, rfl, _⟩
        rfl

theorem Mirrors.inDict
    (hMirrors : Mirrors s t)
    (i : InflateInput) :
    inflateInDict t i = inflateInDict s i := by
  cases i with
  | inflate nextIn availOut flush =>
      exact (hMirrors.offer nextIn availOut).ddcbInDict flush
  | setDictionary dictionary => rfl
  | getHeader head => rfl

theorem Mirrors.setDictionary
    (hMirrors : Mirrors s t)
    (dictionary : List UInt8) :
    (zedcInflateSetDictionary dictionary s).1 =
        (zedcInflateSetDictionary dictionary t).1 ∧
      Mirrors (zedcInflateSetDictionary dictionary s).2
        (zedcInflateSetDictionary dictionary t).2 := by
  rcases hMirrors with rfl | ⟨hOver, pages, rfl⟩
  · unfold zedcInflateSetDictionary
    simp only [plain_format, plain_dictAdler32]
    split
    · exact ⟨rfl, Or.inl rfl⟩
    · split
      · exact ⟨rfl, Or.inl rfl⟩
      · exact ⟨rfl, Or.inl rfl⟩
  · unfold zedcInflateSetDictionary
    simp only [plain_format, plain_dictAdler32]
    split
    · exact ⟨rfl, Or.inr ⟨hOver, pages, rfl⟩⟩
    · split
      · exact ⟨rfl, Or.inr ⟨hOver, pages, rfl⟩⟩
      · exact ⟨rfl, Or.inr
          ⟨hOver.congr rfl rfl rfl, _, rfl⟩⟩

/- Related results of a call are shown the same. -/
theorem Mirrors.shows
    {a b : Option (Rc × InflStream)}
    (hMirrors : Mirrors s t)
    (i : InflateInput)
    (hBoth :
      Option.Rel
        (fun a b => a.1 = b.1 ∧ Mirrors a.2 b.2) a b) :
    Option.Rel
      (fun a b => a.1 = b.1 ∧ Mirrors a.2 b.2)
      (a.map (inflateShown s i)) (b.map (inflateShown t i)) := by
  refine hBoth.map_of ?_
  rintro ⟨rc, s'⟩ ⟨rc', t'⟩ ⟨hRc, hNext⟩
  rcases hNext.shown with ⟨hOut, hIn⟩
  refine ⟨?_, hNext⟩
  unfold inflateShown
  simp only at hRc hNext hOut hIn ⊢
  rw [hRc, hOut, hIn, hNext.pending, hMirrors.inDict]

/- The two streams go on in step. -/
theorem inflate_lockstep
    (hCard : InflCard card) :
    Lockstep (inflateShow card) (inflateShow card)
      (InflateHarmless card) Mirrors := by
  intro s t i hMirrors hFits
  refine hMirrors.shows i ?_
  cases i with
  | inflate nextIn availOut flush =>
      exact (zedcInflate_mirrors hCard
        (hMirrors.offer nextIn availOut) hFits).map_of
          fun _ _ hSame => hSame
  | setDictionary dictionary =>
      exact .some (hMirrors.setDictionary dictionary)
  | getHeader head =>
      refine .some ⟨rfl, ?_⟩
      rcases hMirrors with rfl | ⟨hOver, pages, rfl⟩
      · exact Or.inl rfl
      · exact Or.inr
          ⟨hOver.congr rfl rfl rfl, pages, rfl⟩

/- So the flag does not show where it does no harm. -/
theorem observe_inflate_plain
    {inputs : List InflateInput}
    (hCard : InflCard card)
    (hFits :
      Admits (inflateShow card) (InflateHarmless card)
        inputs s) :
    observe (inflateShow card) inputs s =
      observe (inflateShow card) inputs
        { s with flgSkipLastDict := false } :=
  (inflate_lockstep hCard).observe_eq (Or.inl rfl) hFits

end Runs

end Session
