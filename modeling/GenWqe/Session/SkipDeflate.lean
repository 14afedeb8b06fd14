import GenWqe.Deflate.Failure
import GenWqe.Hardware.DeflateErrors
import GenWqe.Session.InflateDelivery
import GenWqe.Session.Overlay
import GenWqe.Session.SkipInflate

/-
  `ZEDC_FLG_SKIP_LAST_DICT` on a deflate stream, next to the
  same stream without it; and both streams together.

  Key definitions include:
    * `plainStream`
    * `DeflCard`, `deflateSkipFits`

  Main results:
    * `deflatePrepare_plain`
    * `deflateSubmit_plain`
    * `skip_invisible`
-/

------------------------------------------------------------
-- The Plain Stream
------------------------------------------------------------

namespace Session

open Zedc Hardware

/-
  The stream without the flag, and with other contents of its
  dictionary pages.
-/
@[simps] def plainStream
    (pages : Bool → ByteMem) (s : DeflStream) : DeflStream :=
  { s with
    flgSkipLastDict := false
    dict := pages }

section Plain

variable (pages : Bool → ByteMem) (s : DeflStream)

-- it is an overlay, which the code does not look at
theorem deflatePrepare_plain
    (flush : Flush) (now : UInt32) :
    deflatePrepare flush now (plainStream pages s) =
      Sum.map (Prod.map id (plainStream pages))
        (plainStream pages)
        (deflatePrepare flush now s) :=
  deflatePrepare_overlay false pages s flush now

theorem deflateProcessResults_plain (resp : DeflResp) :
    deflateProcessResults resp (plainStream pages s) =
      Prod.map id (plainStream pages)
        (deflateProcessResults resp s) :=
  deflateProcessResults_overlay false pages s resp

theorem deflateWindUp_plain
    (flush : Flush) (ex ex' : DeflExchange) :
    (deflateWindUp flush ex' (plainStream pages s)).rc =
        (deflateWindUp flush ex s).rc ∧
      (deflateWindUp flush ex' (plainStream pages s)).strm =
        plainStream pages
          (deflateWindUp flush ex s).strm :=
  deflateWindUp_overlay false pages s flush ex ex'

end Plain

------------------------------------------------------------
-- The Card
------------------------------------------------------------

/-
  A card whose answer is a function of the request: of the
  dictionary it reads `in_dict_len` bytes, and whether it
  saves one shows in the page alone.
-/
structure DeflCard (card : DeflReq → DeflResp) : Prop where
  blind :
    ∀ req, req.saveDict = true →
      { card { req with saveDict := false, outDictLen := 0 }
        with outDict := (card req).outDict } = card req
  reads :
    ∀ req (m : ByteMem),
      m.window 0 req.inDictLen.toNat =
          req.inDict.window 0 req.inDictLen.toNat →
        card { req with inDict := m } = card req

/- Each of the tries is made on this card. -/
def onDeflCard
    (card : DeflReq → DeflResp) (now : UInt32) :
    DeflateEnv where
  accel := fun _ => card
  now := now

/- The request that saves the dictionary. -/
def fullRequest (flush : Flush) (s : DeflStream) : DeflReq :=
  { deflateRequest flush s with
    saveDict := true
    outDictLen := zedcDictLen }

/-
  A first try without the dictionary that fails would not have
  written it, and one that is rejected leaves none.
-/
def deflateSkipFits
    (card : DeflReq → DeflResp)
    (flush : Flush)
    (s : DeflStream) : Prop :=
  deflateSkipLastDict flush s = true →
    ((card (fullRequest flush s)).failed = true →
      (card (fullRequest flush s)).outDict =
        s.dict (!s.wspPage)) ∧
    ((card (fullRequest flush s)).failed = false →
      (card (fullRequest flush s)).absorbed s = true →
        (card (fullRequest flush s)).rejected s →
          (card (fullRequest flush s)).outDictUsed = 0)

/- The dictionary that the next DDCB is given agrees. -/
def DictAgrees
    (pages : Bool → ByteMem) (s : DeflStream) : Prop :=
  pages s.wspPage = s.dict s.wspPage ∨ s.dictLen = 0

/- The stream without the flag next to the one with it. -/
def MirrorsDefl (s t : DeflStream) : Prop :=
  ∃ pages,
    t = plainStream pages s ∧
      (DictAgrees pages s ∨ DeflEnded s)

/- It still does where nothing happened to the dictionary. -/
theorem DictAgrees.kept
    {pages : Bool → ByteMem}
    {s s' : DeflStream}
    (hAgrees : DictAgrees pages s)
    (hKept : DeflDictKept s s') :
    DictAgrees pages s' := by
  unfold DictAgrees
  rw [hKept.wspPage, hKept.dict, hKept.dictLen]
  exact hAgrees

section Card

variable {card : DeflReq → DeflResp}
variable {flush : Flush} {now : UInt32}
variable {s t : DeflStream} {pages : Bool → ByteMem}

/- Leaving the dictionary out changes nothing else. -/
theorem deflateFirst_blind
    (hCard : DeflCard card)
    (hSkip : deflateSkipLastDict flush s = true) :
    ∃ outDict,
      card (deflateRequest flush s) =
        { card (fullRequest flush s) with
          outDict := outDict } := by
  have hRequest :
      deflateRequest flush s =
        { fullRequest flush s with
          saveDict := false
          outDictLen := 0 } := by
    unfold fullRequest deflateRequest
    rw [hSkip]
    rfl
  have hSame := hCard.blind (fullRequest flush s) rfl
  refine ⟨(card (deflateRequest flush s)).outDict, ?_⟩
  rw [hRequest]
  rw [← hSame]

/- The plain stream makes the full request. -/
theorem deflateRequest_plain
    (hCard : DeflCard card)
    (hAgrees : DictAgrees pages s) :
    card (deflateRequest flush (plainStream pages s)) =
      card (fullRequest flush s) := by
  refine hCard.reads (fullRequest flush s)
    (fun i => pages s.wspPage (s.outDictOffs.toNat + i)) ?_
  rcases hAgrees with hPage | hNone
  · rw [hPage]
    rfl
  · have hLen :
        (fullRequest flush s).inDictLen.toNat = 0 :=
      congrArg UInt16.toNat hNone
    rw [hLen]
    rfl

/- What the tries come to, with and without the flag. -/
inductive SameDeflExec
    (flush : Flush) (s s₁ t₁ : DeflStream) :
    Option DeflExchange → Option DeflExchange → Prop
  | failed
      {pages : Bool → ByteMem} :
      t₁ = plainStream pages s₁ →
      pages s₁.wspPage = s₁.dict s₁.wspPage →
      SameDeflExec flush s s₁ t₁ none none
  | done
      {ex ex' : DeflExchange} {pages : Bool → ByteMem} :
      t₁ = plainStream pages s₁ →
      { ex'.resp with outDict := ex.resp.outDict } =
        ex.resp →
      pages s₁.wspPage = s₁.dict s₁.wspPage ∨
        deflateSkipLastDict flush s = true ∧
          ex.resp.absorbed s = true ∧
          (ex.resp.rejected s → ex.resp.outDictUsed = 0) →
      SameDeflExec flush s s₁ t₁ (some ex) (some ex')

/- The stream with its new page written. -/
def writtenPage
    (outDict : ByteMem) (pages : Bool → ByteMem)
    (s : DeflStream) : DeflStream :=
  { s with
    wspPage := !s.wspPage
    dict := fun p =>
      if p = !s.wspPage then outDict else pages p }

/- A request that saves the dictionary, in one try. -/
theorem deflateExecute_saving
    (env : DeflateEnv)
    (hSkip : deflateSkipLastDict flush s = false) :
    deflateExecute flush env s =
      ((if (env.accel 0 (deflateRequest flush s)).failed then
          none
        else
          some ⟨deflateRequest flush s,
            env.accel 0 (deflateRequest flush s)⟩),
        writtenPage
          (env.accel 0 (deflateRequest flush s)).outDict
          s.dict s) := by
  have hSave :
      (deflateRequest flush s).saveDict = true := by
    unfold deflateRequest
    rw [hSkip]
    rfl
  unfold deflateExecute deflateSaveDict
  simp only [hSkip, hSave, if_true, Bool.not_false,
    Bool.or_true]
  split <;> rfl

/- One that first leaves it out, and may be repeated. -/
theorem deflateExecute_skipping
    (env : DeflateEnv)
    (hSkip : deflateSkipLastDict flush s = true) :
    deflateExecute flush env s =
      if (env.accel 0 (deflateRequest flush s)).failed then
        (none, { s with wspPage := !s.wspPage })
      else if
          (env.accel 0 (deflateRequest flush s)).absorbed s
        then
        (some ⟨deflateRequest flush s,
            env.accel 0 (deflateRequest flush s)⟩,
          { s with wspPage := !s.wspPage })
      else
        ((if (env.accel 1 (fullRequest flush s)).failed then
            none
          else
            some ⟨fullRequest flush s,
              env.accel 1 (fullRequest flush s)⟩),
          writtenPage
            (env.accel 1 (fullRequest flush s)).outDict
            s.dict s) := by
  have hSave :
      (deflateRequest flush s).saveDict = false := by
    unfold deflateRequest
    rw [hSkip]
    rfl
  have hAbsorbed :
      ∀ resp : DeflResp,
        resp.absorbed { s with wspPage := !s.wspPage } =
          resp.absorbed s := fun _ => rfl
  unfold deflateExecute deflateSaveDict
  simp only [hSkip, hSave, Bool.false_eq_true, if_false,
    Bool.not_true, Bool.or_false, hAbsorbed]
  split
  · rfl
  · split
    · rfl
    · exact (apply_ite (fun found =>
        (found,
          writtenPage
            (env.accel 1 (fullRequest flush s)).outDict
            s.dict s)) _ _ _).symm

/- With and without the flag the same is left behind. -/
theorem deflateExecute_plain
    (hCard : DeflCard card)
    (hAgrees : DictAgrees pages s)
    (hFits : deflateSkipFits card flush s) :
    SameDeflExec flush s
      (deflateExecute flush (onDeflCard card now) s).2
      (deflateExecute flush (onDeflCard card now)
        (plainStream pages s)).2
      (deflateExecute flush (onDeflCard card now) s).1
      (deflateExecute flush (onDeflCard card now)
        (plainStream pages s)).1 := by
  have hNoSkip :
      deflateSkipLastDict flush (plainStream pages s) =
        false := rfl
  have hAccel :
      ∀ n req, (onDeflCard card now).accel n req = card req :=
    fun _ _ => rfl
  rw [deflateExecute_saving (onDeflCard card now) hNoSkip,
    hAccel, deflateRequest_plain hCard hAgrees]
  have hWritten :
      writtenPage (card (fullRequest flush s)).outDict
          (plainStream pages s).dict (plainStream pages s) =
        plainStream
          (writtenPage (card (fullRequest flush s)).outDict
            pages s).dict
          { s with wspPage := !s.wspPage } := rfl
  have hNew :
      (writtenPage (card (fullRequest flush s)).outDict
          pages s).dict (!s.wspPage) =
        (card (fullRequest flush s)).outDict := if_pos rfl
  by_cases hSkip : deflateSkipLastDict flush s = true
  swap
  · -- both streams save the dictionary
    rw [Bool.not_eq_true] at hSkip
    have hFull :
        deflateRequest flush s = fullRequest flush s := by
      unfold fullRequest deflateRequest
      rw [hSkip]
      rfl
    have hNew' :
        (writtenPage (card (fullRequest flush s)).outDict
            s.dict s).dict (!s.wspPage) =
          (card (fullRequest flush s)).outDict := if_pos rfl
    rw [deflateExecute_saving (onDeflCard card now) hSkip,
      hAccel, hFull]
    split
    · exact .failed hWritten (hNew.trans hNew'.symm)
    · exact .done hWritten rfl
        (Or.inl (hNew.trans hNew'.symm))
  · rcases deflateFirst_blind hCard hSkip with
      ⟨outDict, hFirst⟩
    rcases hFits hSkip with ⟨hFailing, hRejected⟩
    rw [deflateExecute_skipping (onDeflCard card now) hSkip]
    simp only [hAccel, hFirst]
    have hFailed :
        ({ card (fullRequest flush s) with
          outDict := outDict } : DeflResp).failed =
            (card (fullRequest flush s)).failed := rfl
    have hAbsorbed :
        ({ card (fullRequest flush s) with
          outDict := outDict } : DeflResp).absorbed s =
            (card (fullRequest flush s)).absorbed s := rfl
    rw [hFailed, hAbsorbed]
    by_cases hFail :
        (card (fullRequest flush s)).failed = true
    · rw [if_pos hFail, if_pos hFail]
      exact .failed hWritten
        (hNew.trans (hFailing hFail))
    simp only [if_neg hFail]
    by_cases hAll :
        (card (fullRequest flush s)).absorbed s = true
    · rw [if_pos hAll]
      rw [Bool.not_eq_true] at hFail
      refine .done hWritten ?_ (Or.inr ⟨hSkip, ?_, ?_⟩)
      · rfl
      · exact hAll
      · exact hRejected hFail hAll
    · -- the repeated request is the one of the plain stream
      rw [if_neg hAll]
      have hNew' :
          (writtenPage (card (fullRequest flush s)).outDict
              s.dict s).dict (!s.wspPage) =
            (card (fullRequest flush s)).outDict :=
        if_pos rfl
      exact .done hWritten rfl
        (Or.inl (hNew.trans hNew'.symm))

------------------------------------------------------------
-- One Submission
------------------------------------------------------------

/- Results do not move the dictionary. -/
theorem deflateProcessResults_dictKept
    (resp : DeflResp) (s : DeflStream) :
    DeflDictKept s (deflateProcessResults resp s).2 := by
  unfold deflateProcessResults
  simp only
  split_ifs <;> exact ⟨rfl, rfl, rfl, rfl⟩

/- Nor does a flush, save that a full one forgets it. -/
theorem deflateFlush_dict
    (flush : Flush) (s : DeflStream) :
    (deflateFlush flush s).dict = s.dict ∧
      (deflateFlush flush s).wspPage = s.wspPage ∧
      (deflateFlush flush s).dictLen =
        if flush = .fullFlush then 0 else s.dictLen := by
  have hSide := inputSide_deflateFlush flush s
  exact ⟨(congrArg DeflStream.dict hSide :),
    (congrArg DeflStream.wspPage hSide :),
    (congrArg DeflStream.dictLen hSide :)⟩

/- Fewer than eight bits wait, so the end is written. -/
theorem deflateFinish_ended
    (hBits : s.onumbits < 8) :
    DeflEnded (deflateFinish s) := by
  have hEob : (deflateWriteEob s).eobAdded = true := by
    unfold deflateWriteEob
    by_cases hAdded : s.eobAdded = true
    · rw [if_pos hAdded]
      exact hAdded
    · rw [if_neg hAdded, if_neg (Nat.not_le.mpr hBits)]
  have hTrailer :
      ∀ s₁ : DeflStream, s₁.eobAdded = true →
        DeflEnded (deflateAddTrailer s₁) := by
    intro s₁ hEob
    unfold deflateAddTrailer
    rw [if_neg (by simp [hEob])]
    by_cases hAdded : s₁.trailerAdded = true
    · rw [if_pos hAdded]
      exact ⟨hEob, hAdded⟩
    · rw [if_neg hAdded]
      exact ⟨hEob, rfl⟩
  exact (hTrailer _ hEob).drained.1

/- Where a request is made the FIFO was drained. -/
theorem deflatePrepare_drained
    (hPrepare : deflatePrepare flush now s = .inr s₁) :
    s₁.outFifo.contents = [] := by
  unfold deflatePrepare at hPrepare
  generalize
    (if s.headerAdded then (false, s)
      else deflateAddHeader now s) = added at *
  rcases added with ⟨_ | _, s₂⟩
  swap
  · cases hPrepare
  simp only at hPrepare
  unfold deflatePrepareDrained at hPrepare
  split at hPrepare
  · cases hPrepare
  · rename_i hSpace
    rcases deflateExits_inr hPrepare with ⟨hSame, hInput⟩
    split at hSame
    · -- the stream is finished without input only
      rename_i hFinish
      rw [if_pos hFinish] at hInput
      have hEmpty :=
        (congrArg DeflStream.nextIn
          (inputSide_deflateFinish
            (deflateWriteOutFifo s₂)) :)
      exact absurd (hEmpty.trans hFinish.2) hInput
    · rw [hSame]
      exact
        ((deflateWriteOutFifo_spec s₂).full.resolve_left
          hSpace)

/-
  Behind an answer whose dictionary was left out, nothing of
  it is read: a full flush forgets it, and a finish ends the
  stream.
-/
theorem deflateFlush_absorbed
    {s₂ : DeflStream}
    (hSkip : deflateSkipLastDict flush s = true)
    (hInput : s₂.nextIn = [])
    (hBits : s₂.onumbits < 8) :
    (deflateFlush flush s₂).dictLen = 0 ∨
      DeflEnded (deflateFlush flush s₂) := by
  unfold deflateSkipLastDict at hSkip
  rw [Bool.and_eq_true, Bool.and_eq_true, Bool.or_eq_true,
    beq_iff_eq, beq_iff_eq] at hSkip
  rcases hSkip.1.2 with rfl | rfl
  · right
    show
      DeflEnded
        (if s₂.nextIn = [] then deflateFinish s₂ else s₂)
    rw [if_pos hInput]
    exact deflateFinish_ended hBits
  · exact Or.inl rfl

/- Rejected answers are the ones that are refused. -/
theorem rejected_iff
    (ex : DeflExchange) (s₁ : DeflStream)
    (hIn : s₁.nextIn = s.nextIn)
    (hOut : s₁.availOut = s.availOut)
    (hKind :
      s₁.dynHuffmanSupported = s.dynHuffmanSupported) :
    ex.resp.rejected s ↔
      ex.resp.outDictOffs ≥ 16 ∨
        (deflateProcessResults ex.resp
          (deflateTakeAsv ex.resp s₁)).1.IsNegative := by
  have hAvail :
      (deflateTakeAsv ex.resp s₁).availIn = s.availIn := by
    show s₁.nextIn.length = s.nextIn.length
    rw [hIn]
  rw [(deflateProcessResults_cases ex.resp
    (deflateTakeAsv ex.resp s₁)).1, hAvail]
  unfold DeflResp.rejected BadOutput
  show
    _ ↔ _ ∨ _ ∨ _ ∨
      ex.resp.outpReturned.toNat > s₁.availOut ∨
      obitsInvalid s₁.dynHuffmanSupported
          ex.resp.onumbits.toNat = true ∨
        (ex.resp.outpReturned.toNat < s₁.availOut ∧
          ex.resp.onumbits.toNat > 7)
  rw [hOut, hKind]

/- Answers that differ in the dictionary are used the same. -/
theorem deflateAnswered_plain
    {ex ex' : DeflExchange}
    (hSame :
      { ex'.resp with outDict := ex.resp.outDict } =
        ex.resp)
    (pages : Bool → ByteMem)
    (s : DeflStream) :
    deflateTakeAsv ex'.resp (plainStream pages s) =
        plainStream pages (deflateTakeAsv ex.resp s) ∧
      deflateProcessResults ex'.resp (plainStream pages s) =
        Prod.map id (plainStream pages)
          (deflateProcessResults ex.resp s) := by
  rw [deflateProcessResults_plain, ← hSame]
  exact ⟨rfl, rfl⟩

/- What is left behind an answer that both streams use. -/
theorem deflateUse_plain
    {ex : DeflExchange}
    {s₁ : DeflStream}
    (hPages :
      pages s₁.wspPage = s₁.dict s₁.wspPage ∨
        deflateSkipLastDict flush s = true ∧
          ex.resp.absorbed s = true ∧
          (ex.resp.rejected s → ex.resp.outDictUsed = 0))
    (hSpec :
      ∃ dict,
        s₁ = { s with wspPage := !s.wspPage, dict := dict })
    (hDrained : s.outFifo.contents = []) :
    (ex.resp.outDictOffs ≥ 16 →
      DictAgrees pages (deflateTakeAsv ex.resp s₁)) ∧
    (∀ rc s₂,
      deflateProcessResults ex.resp
          (deflateTakeAsv ex.resp s₁) = (rc, s₂) →
      (rc.IsNegative → DictAgrees pages s₂) ∧
      (rc = .ok →
        DictAgrees pages (deflateFlush flush s₂) ∨
          DeflEnded (deflateFlush flush s₂))) := by
  rcases hSpec with ⟨dict, rfl⟩
  generalize hTaken :
    ({ s with wspPage := !s.wspPage, dict := dict } :
      DeflStream) = s₁ at *
  have hIn : s₁.nextIn = s.nextIn := by rw [← hTaken]
  have hOut : s₁.availOut = s.availOut := by rw [← hTaken]
  have hKind :
      s₁.dynHuffmanSupported = s.dynHuffmanSupported := by
    rw [← hTaken]
  have hFifo : s₁.outFifo = s.outFifo := by rw [← hTaken]
  have hRejected := rejected_iff ex s₁ hIn hOut hKind
  constructor
  · intro hOffs
    rcases hPages with hPage | ⟨_, _, hLen⟩
    · exact Or.inl hPage
    · exact Or.inr (hLen (hRejected.mpr (Or.inl hOffs)))
  intro rc s₂ hResults
  have hKept :=
    deflateProcessResults_dictKept ex.resp
      (deflateTakeAsv ex.resp s₁)
  rw [hResults] at hKept hRejected
  have hPageKept :
      pages s₁.wspPage = s₁.dict s₁.wspPage →
        pages s₂.wspPage = s₂.dict s₂.wspPage := by
    intro hPage
    rw [hKept.wspPage, hKept.dict]
    exact hPage
  constructor
  · intro hNegative
    rcases hPages with hPage | ⟨_, _, hLen⟩
    · exact Or.inl (hPageKept hPage)
    · right
      rw [hKept.dictLen]
      exact hLen (hRejected.mpr (Or.inr hNegative))
  · rintro rfl
    rcases deflateFlush_dict flush s₂ with
      ⟨hDict, hPage₂, hLen₂⟩
    rcases hPages with hPage | ⟨hSkip, hAll, _⟩
    · left
      left
      rw [hDict, hPage₂]
      exact hPageKept hPage
    · have hCount :
          ex.resp.inpProcessed.toNat = s.nextIn.length := by
        unfold DeflResp.absorbed at hAll
        rw [Bool.and_eq_true, beq_iff_eq] at hAll
        exact hAll.1.symm
      have hInput :=
        nextIn_of_results hIn hCount hResults
      have hBits : s₂.onumbits < 8 := by
        rcases deflateProcessResults_spec
          (show (deflateTakeAsv ex.resp s₁).outFifo.contents =
            [] from hFifo ▸ hDrained) hResults with
          ⟨f, obyte, hEq, _, _⟩
        rw [hEq]
        exact Nat.mod_lt _ (by decide)
      exact (deflateFlush_absorbed hSkip hInput hBits).imp
        Or.inr id

/- A submission with the flag, and the same without it. -/
theorem deflateSubmit_plain
    (hCard : DeflCard card)
    (hAgrees : DictAgrees pages s)
    (hDrained : s.outFifo.contents = [])
    (hFits : deflateSkipFits card flush s) :
    (deflateSubmit flush (onDeflCard card now)
        (plainStream pages s)).rc =
      (deflateSubmit flush (onDeflCard card now) s).rc ∧
    MirrorsDefl
      (deflateSubmit flush (onDeflCard card now) s).strm
      (deflateSubmit flush (onDeflCard card now)
        (plainStream pages s)).strm := by
  have hSame :=
    @deflateExecute_plain card flush now s pages hCard
      hAgrees hFits
  have hSpec :=
    @deflateExecute_spec flush (onDeflCard card now) s
  unfold deflateSubmit
  generalize
    deflateExecute flush (onDeflCard card now) s = a at *
  generalize
    deflateExecute flush (onDeflCard card now)
      (plainStream pages s) = b at *
  rcases a with ⟨found, s₁⟩
  rcases b with ⟨found', t₁⟩
  have hMoved := (hSpec rfl).1
  cases hSame with
  | @failed pages' hPlain hPage =>
      change t₁ = plainStream pages' s₁ at hPlain
      change pages' s₁.wspPage = s₁.dict s₁.wspPage at hPage
      exact ⟨rfl, pages', hPlain, Or.inl (Or.inl hPage)⟩
  | @done ex ex' pages' hPlain hSame hPages =>
      change t₁ = plainStream pages' s₁ at hPlain
      subst hPlain
      rcases deflateUse_plain hPages hMoved hDrained with
        ⟨hOffset, hUsed⟩
      simp only
      rw [(deflateAnswered_plain hSame pages' s₁).1]
      rw [(deflateAnswered_plain hSame pages'
        (deflateTakeAsv ex.resp s₁)).2]
      rw [plainStream_outDictOffs]
      by_cases hOffs : ex.resp.outDictOffs ≥ 16
      · have hBad :
            (deflateTakeAsv ex.resp s₁).outDictOffs ≥ 16 :=
          hOffs
        simp only [if_pos hBad]
        exact ⟨trivial, pages', rfl,
          Or.inl (hOffset hOffs)⟩
      · have hGood :
            ¬ (deflateTakeAsv ex.resp s₁).outDictOffs ≥ 16 :=
          hOffs
        simp only [if_neg hGood]
        have hCode :=
          deflateProcessResults_rc ex.resp
            (deflateTakeAsv ex.resp s₁)
        generalize hResults :
          deflateProcessResults ex.resp
            (deflateTakeAsv ex.resp s₁) = result at hCode ⊢
        rcases result with ⟨rc, s₂⟩
        rcases hUsed rc s₂ hResults with ⟨hNeg, hOk⟩
        simp only [Prod.map_apply, id_eq]
        by_cases hNegative : rc.IsNegative
        · simp only [if_pos hNegative]
          exact ⟨trivial, pages', rfl,
            Or.inl (hNeg hNegative)⟩
        · simp only [if_neg hNegative]
          rcases deflateWindUp_plain pages' s₂ flush ex ex'
            with ⟨hRc, hStrm⟩
          exact ⟨hRc, pages', hStrm,
            hOk (hCode.resolve_left hNegative)⟩

/- A call with the flag, and the same call without it. -/
theorem zedcDeflate_mirrors
    (hCard : DeflCard card)
    (hMirrors : MirrorsDefl s t)
    (hFits :
      ∀ s₁, deflatePrepare flush now s = .inr s₁ →
        deflateSkipFits card flush s₁) :
    (zedcDeflate flush (onDeflCard card now) t).rc =
        (zedcDeflate flush (onDeflCard card now) s).rc ∧
      MirrorsDefl
        (zedcDeflate flush (onDeflCard card now) s).strm
        (zedcDeflate flush (onDeflCard card now) t).strm := by
  have hNow : (onDeflCard card now).now = now := rfl
  rcases hMirrors with ⟨pages, rfl, hOr⟩
  have hKept := deflatePrepare_dictKept flush now s
  unfold zedcDeflate
  rw [hNow, deflatePrepare_plain]
  cases hPrepare : deflatePrepare flush now s with
  | inl result =>
      rcases result with ⟨rc, s₁⟩
      rw [hPrepare] at hKept
      refine ⟨rfl, pages, rfl, ?_⟩
      rcases hOr with hAgrees | hEnded
      · exact Or.inl (hAgrees.kept hKept)
      · rcases hEnded.prepare flush now with
          ⟨rc', s', hSame, hEnded', _⟩
        cases hPrepare.symm.trans hSame
        exact Or.inr hEnded'
  | inr s₁ =>
      rw [hPrepare] at hKept
      rcases hOr with hAgrees | hEnded
      · exact deflateSubmit_plain hCard
          (hAgrees.kept hKept)
          (deflatePrepare_drained hPrepare)
          (hFits s₁ hPrepare)
      · rcases hEnded.prepare flush now with
          ⟨rc', s', hLeft, _, _⟩
        cases hPrepare.symm.trans hLeft

end Card

------------------------------------------------------------
-- Runs
------------------------------------------------------------

/- The arguments of a call of `zedc_deflate` on a card. -/
structure DeflateInput where
  nextIn : List UInt8
  availOut : Nat
  flush : Flush
  now : UInt32

/- The stream with the buffers of a call. -/
def DeflateInput.offer
    (i : DeflateInput) (s : DeflStream) : DeflStream :=
  { s with nextIn := i.nextIn, availOut := i.availOut }

/- The dictionary that the DDCB of a call is given. -/
def deflateInDict
    (s : DeflStream) (i : DeflateInput) :
    Option (List UInt8) :=
  match deflatePrepare i.flush i.now (i.offer s) with
  | .inl _ => none
  | .inr s₁ =>
      some ((deflateRequest i.flush s₁).inDict.window 0
        (deflateRequest i.flush s₁).inDictLen.toNat)

/-
  What a call shows: its return code, all output and input so
  far, and the dictionary that a DDCB was given.
-/
structure DeflateShown where
  rc : Rc
  nextOut : List UInt8
  totalIn : Nat
  inDict : Option (List UInt8)

def deflateShow
    (card : DeflReq → DeflResp)
    (s : DeflStream)
    (i : DeflateInput) :
    Option (DeflateShown × DeflStream) :=
  let ret :=
    zedcDeflate i.flush (onDeflCard card i.now) (i.offer s)
  some
    (⟨ret.rc, ret.strm.nextOut, ret.strm.totalIn,
      deflateInDict s i⟩, ret.strm)

/- Leaving the dictionary out does no harm in a call. -/
def DeflateHarmless
    (card : DeflReq → DeflResp)
    (s : DeflStream)
    (i : DeflateInput) : Prop :=
  ∀ s₁,
    deflatePrepare i.flush i.now (i.offer s) = .inr s₁ →
      deflateSkipFits card i.flush s₁

section Runs

variable {card : DeflReq → DeflResp}
variable {s t : DeflStream}

theorem MirrorsDefl.shown
    (hMirrors : MirrorsDefl s t) :
    t.nextOut = s.nextOut ∧ t.totalIn = s.totalIn := by
  rcases hMirrors with ⟨pages, rfl, _⟩
  exact ⟨rfl, rfl⟩

theorem MirrorsDefl.offer
    (hMirrors : MirrorsDefl s t)
    (i : DeflateInput) :
    MirrorsDefl (i.offer s) (i.offer t) := by
  rcases hMirrors with ⟨pages, rfl, hAgrees | hEnded⟩
  · exact ⟨pages, rfl, Or.inl hAgrees⟩
  · exact ⟨pages, rfl,
      Or.inr ⟨hEnded.eobAdded, hEnded.trailerAdded⟩⟩

/- The dictionary of a DDCB is the same without the flag. -/
theorem MirrorsDefl.inDict
    (hMirrors : MirrorsDefl s t)
    (i : DeflateInput) :
    deflateInDict t i = deflateInDict s i := by
  rcases hMirrors.offer i with ⟨pages, hPlain, hOr⟩
  have hKept :=
    deflatePrepare_dictKept i.flush i.now (i.offer s)
  unfold deflateInDict
  rw [hPlain, deflatePrepare_plain]
  cases hPrepare :
      deflatePrepare i.flush i.now (i.offer s) with
  | inl result => rfl
  | inr s₁ =>
      rw [hPrepare] at hKept
      rcases hOr with hAgrees | hEnded
      · rcases hAgrees.kept hKept with hPage | hNone
        · change pages s₁.wspPage = s₁.dict s₁.wspPage at hPage
          simp only [Sum.map_inr, deflateRequest,
            plainStream_wspPage, plainStream_dict,
            plainStream_outDictOffs, plainStream_dictLen,
            hPage]
        · change s₁.dictLen = 0 at hNone
          simp only [Sum.map_inr, deflateRequest,
            plainStream_dictLen, hNone]
          rfl
      · rcases hEnded.prepare i.flush i.now with
          ⟨rc, s', hLeft, _, _⟩
        cases hPrepare.symm.trans hLeft

/- The two streams go on in step. -/
theorem deflate_lockstep
    (hCard : DeflCard card) :
    Lockstep (deflateShow card) (deflateShow card)
      (DeflateHarmless card) MirrorsDefl := by
  intro s t i hMirrors hFits
  rcases zedcDeflate_mirrors hCard (hMirrors.offer i) hFits
    with ⟨hRc, hNext⟩
  rcases hNext.shown with ⟨hOut, hIn⟩
  refine .some ⟨?_, hNext⟩
  simp only
  rw [hRc, hOut, hIn, hMirrors.inDict]

/- So the flag does not show where it does no harm. -/
theorem observe_deflate_plain
    {inputs : List DeflateInput}
    (hCard : DeflCard card)
    (hFits :
      Admits (deflateShow card) (DeflateHarmless card)
        inputs s) :
    observe (deflateShow card) inputs s =
      observe (deflateShow card) inputs
        { s with flgSkipLastDict := false } :=
  (deflate_lockstep hCard).observe_eq
    ⟨s.dict, rfl, Or.inl (Or.inl rfl)⟩ hFits

end Runs

------------------------------------------------------------
-- Both Streams
------------------------------------------------------------

/-
  Where leaving the dictionary out does no harm, a stream shows
  the same with `ZEDC_FLG_SKIP_LAST_DICT` and without it.
-/
theorem skip_invisible
    (inflCard : InflReq → InflResp)
    (inflInputs : List InflateInput)
    (infl : InflStream)
    (deflCard : DeflReq → DeflResp)
    (deflInputs : List DeflateInput)
    (defl : DeflStream) :
    (InflCard inflCard →
      Admits (inflateShow inflCard) (InflateHarmless inflCard)
        inflInputs infl →
      observe (inflateShow inflCard) inflInputs infl =
        observe (inflateShow inflCard) inflInputs
          { infl with flgSkipLastDict := false }) ∧
    (DeflCard deflCard →
      Admits (deflateShow deflCard) (DeflateHarmless deflCard)
        deflInputs defl →
      observe (deflateShow deflCard) deflInputs defl =
        observe (deflateShow deflCard) deflInputs
          { defl with flgSkipLastDict := false }) :=
  ⟨fun hCard hFits => observe_inflate_plain hCard hFits,
    fun hCard hFits => observe_deflate_plain hCard hFits⟩

/- Eleven bytes of space, and then one more. -/
def lastByteInputs : List InflateInput :=
  [.inflate [0x4b, 0x4c, 0x44, 0x00, 0x00] 11 .finish,
    .inflate [] 1 .finish]

/- A raw stream with the flag. -/
def skippingStream : InflStream :=
  zedcInflateInit2 skipConfig .defl

theorem skip_visible :
    InflCard (fun _ => lastByteResp) ∧
    (observe (inflateShow fun _ => lastByteResp)
        lastByteInputs skippingStream).getLast?.map
          (fun shown => shown.nextOut.getLast?) =
      some (some 0x00) ∧
    (observe (inflateShow fun _ => lastByteResp)
        lastByteInputs
        { skippingStream with
          flgSkipLastDict := false }).getLast?.map
          (fun shown => shown.nextOut.getLast?) =
      some (some 0x61) :=
  ⟨⟨fun _ _ => rfl⟩, by decide, by decide⟩

/- All of it fitted into the output. -/
def fittingResp : InflResp :=
  { lastByteResp with
    outpReturned := 12
    obytesInDict := 0 }

theorem skip_invisible_fitting :
    observe (inflateShow fun _ => fittingResp)
        [.inflate [0x4b, 0x4c, 0x44, 0x00, 0x00] 12 .finish]
        skippingStream =
      observe (inflateShow fun _ => fittingResp)
        [.inflate [0x4b, 0x4c, 0x44, 0x00, 0x00] 12 .finish]
        { skippingStream with flgSkipLastDict := false } ∧
    observe (deflateShow echoResp) [⟨[0x61], 64, .finish, 0⟩]
        { echoStream with flgSkipLastDict := true } =
      observe (deflateShow echoResp)
        [⟨[0x61], 64, .finish, 0⟩] echoStream := by
  have hDefl : DeflCard echoResp :=
    ⟨fun _ _ => rfl, fun _ _ _ => rfl⟩
  have hNotFailed : fittingResp.failed = false := by decide
  have hNotMissing : fittingResp.needDict = false := by
    decide
  have hBoth :=
    skip_invisible (fun _ => fittingResp)
      [.inflate [0x4b, 0x4c, 0x44, 0x00, 0x00] 12 .finish]
      skippingStream echoResp [⟨[0x61], 64, .finish, 0⟩]
      { echoStream with flgSkipLastDict := true }
  constructor
  · refine hBoth.1 ⟨fun _ _ => rfl⟩
      ⟨fun s₁ _ _ => ⟨?_, fun _ => rfl⟩,
        fun _ _ _ => trivial⟩
    rintro (hMissing | hFailed)
    · exact nomatch hNotMissing.symm.trans hMissing
    · exact nomatch hNotFailed.symm.trans hFailed
  · refine hBoth.2 hDefl
      ⟨fun s₁ _ _ => ⟨fun hFailed => ?_, fun _ _ _ => rfl⟩,
        fun _ _ _ => trivial⟩
    have hNotFailed :
        ∀ req, (echoResp req).failed = false :=
      fun _ => rfl
    exact nomatch (hNotFailed _).symm.trans hFailed

end Session
