import GenWqe.Inflate.Header
import GenWqe.Inflate.Trailer
import GenWqe.Inflate.SaveArea

/-
  `zedc_inflate`: what it does before a DDCB, the DDCB itself,
  and what it makes of the results. A result `none` is a
  fault, an access outside a buffer.

  Key definitions include:
    * `inflatePrepare`
    * `setInflateAsiv` and `inflateExecute`
    * `getInflateAsv`
    * `zedcInflate`

  Main results:
    * `inflatePrepare_outcome`
    * `inflateSubmit_outcome`
-/

------------------------------------------------------------
-- Pending Output
------------------------------------------------------------

namespace Zedc

/- `zedc_inflate_pending_output` -/
def zedcInflatePendingOutput (s : InflStream) : Nat :=
  s.dict.obytesInDict

/-
  `zedc_read_pending_output`: the bytes that are stored at
  `buf`, the number of which it returns. No result stands for
  `ZEDC_ERR_DICT_OVERRUN`.
-/
def zedcReadPendingOutput
    (len : Nat) (s : InflStream) :
    Option (List UInt8 × InflStream) :=
  if s.dict.obytesInDict = 0 then some ([], s)
  else if s.dict.dictLen < s.dict.obytesInDict then none
  else
    let n := min len s.dict.obytesInDict
    some (s.dict.pending.take n,
      { s with
        dict :=
          { s.dict with
            obytesInDict := s.dict.obytesInDict - n } })

/- `inflate_flush_output_buffer` -/
def inflateFlushOutputBuffer (s : InflStream) :
    Rc × InflStream :=
  if s.dict.obytesInDict = 0 then (.ok, s)
  else if s.dict.dictLen < s.dict.obytesInDict then
    (.errDictOverrun, s)
  else
    let n := min s.availOut s.dict.obytesInDict
    (.ok,
      { s with
        nextOut := s.nextOut ++ s.dict.pending.take n
        availOut := s.availOut - n
        totalOut := s.totalOut + n
        dict :=
          { s.dict with
            obytesInDict := s.dict.obytesInDict - n } })

------------------------------------------------------------
-- Before a DDCB
------------------------------------------------------------

/- Did we reach End-Of-Final-Block (or seen it before)? -/
def inflateEobSeen (s : InflStream) : InflStream :=
  if finalEob s.asv.inflStat then { s with eobSeen := true }
  else s

/- The trailer behind the final block, and what it answers. -/
def inflateTrailer (s : InflStream) : Rc × InflStream :=
  match inflateFormatRemTrailer s with
  | (.failed _, s₁) => (.dataError, s₁)
  | (.mustReenter, s₁) => (.ok, s₁)
  | (.removed, s₁) =>
    if s₁.dict.obytesInDict = 0 then (.streamEnd, s₁)
    else (.ok, s₁)

/- The part from `chk_ret` on. -/
def inflateChkRet (s : InflStream) : Rc :=
  if finalEob s.asv.inflStat ∧ s.dict.obytesInDict = 0 then
    .streamEnd
  else .ok

/- Remove a potential ZLIB or GZIP prefix. -/
def inflateHeader (flush : Flush) (s : InflStream) :
    Option (Rc × InflStream) :=
  if s.prefx.headerState ≠ .headerDone then
    inflateFormatRemHeader flush s
  else some (.ok, s)

/- From the header on: return, or go on to a DDCB. -/
def inflatePrefix (flush : Flush) (s : InflStream) :
    Option (Sum (Rc × InflStream) InflStream) :=
  match inflateHeader flush s with
  | none => none
  | some (rc, s₁) =>
    if rc ≠ .ok then some (.inl (rc, s₁))
    else if s₁.dataType80 then some (.inl (.ok, s₁))
    else if s₁.availIn = 0 ∧ s₁.save.scratchBits = 0 then
      some (.inl (inflateChkRet s₁, s₁))
    else some (.inr s₁)

/- From the final block on: the trailer, or the data. -/
def inflateEntry (flush : Flush) (s : InflStream) :
    Option (Sum (Rc × InflStream) InflStream) :=
  if s.eobSeen then some (.inl (inflateTrailer s))
  else if s.availOut = 0 then some (.inl (.ok, s))
  else inflatePrefix flush s

/- All that `zedc_inflate` does before it builds a DDCB. -/
def inflatePrepare (flush : Flush) (s : InflStream) :
    Option (Sum (Rc × InflStream) InflStream) :=
  if s.availIn > zedcInflAvailInMax then
    some (.inl (.memError, s))
  else
    match inflateFlushOutputBuffer
        { s with inpDataOffs := 0 } with
    | (rc, s₁) =>
      if rc ≠ .ok then some (.inl (.streamError, s₁))
      else inflateEntry flush (inflateEobSeen s₁)

------------------------------------------------------------
-- The DDCB
------------------------------------------------------------

/- `hdr_ib` to `scratch_bits` added up, 32-bit words. -/
def SaveArea.bits (a : SaveArea) : Nat :=
  (a.hdrIb + a.treeBits + a.padBits + a.scratchIb +
    a.scratchBits) % 2 ^ 32

/- `set_inflate_asiv`, as far as it changes the stream. -/
def setInflateAsiv (s : InflStream) : InflStream :=
  { s with
    inHdrScratchLen := s.save.bits / 8
    preScratchBits :=
      (s.save.treeBits + s.save.scratchBits) % 2 ^ 32
    inHdrBits := s.save.treeBits % 2 ^ 16
    dict := { s.dict with wspPage := !s.dict.wspPage } }

/- The request `set_inflate_asiv` makes, saving the dict. -/
def inflateRequest (s : InflStream) : InflReq where
  saveDict := true
  rasCheck := s.flgCrossCheck
  inBuff := s.nextIn
  outBuffLen := s.availOut
  inpScratch := s.save.tree
  inScratchLen := s.save.bits / 8
  scratchIb := s.save.scratchIb
  hdrIb := s.save.hdrIb
  inHdrBits := s.save.treeBits % 2 ^ 16
  inDict := fun i =>
    s.dict.dict s.dict.wspPage (s.dict.outDictOffs + i)
  inDictLen := s.dict.dictLen
  outDictLen := zedcDictLen
  inCrc32 := s.crc32
  inAdler32 := s.adler32

/- Try without the dictionary first, in two tries. -/
def inflateSkipLastDict (flush : Flush) (s : InflStream) :
    Bool :=
  s.flgSkipLastDict && flush == .finish &&
    decide (s.availOut > s.availIn * 2 % 2 ^ 32)

/- `DDCB_ERR_EXEC_DDCB` for a distance too far back. -/
def InflResp.needDict (resp : InflResp) : Bool :=
  resp.rc == ddcbErrExecDdcb &&
    resp.retc == ddcbRetcFault && resp.attn == 0x801a

/- The execution failed, or the DDCB was not completed. -/
def InflResp.failed (resp : InflResp) : Bool :=
  resp.rc < 0 || resp.retc != ddcbRetcComplete

/- The stream with other contents of its dictionary pages. -/
def InflStream.withPages
    (pages : Bool → ByteMem) (s : InflStream) : InflStream :=
  { s with dict := { s.dict with dict := pages } }

/- The card writes the dictionary where it was asked to. -/
def inflateSaveDict
    (req : InflReq) (resp : InflResp) (s : InflStream) :
    InflStream :=
  if req.saveDict then
    s.withPages fun p =>
      if p = s.dict.wspPage then resp.outDict
      else s.dict.dict p
  else s

/- What comes of the executions. -/
inductive InflExec where
  | needDict
  | failed
  | done (ex : InflExchange)

/- One turn of the loop over the tries. -/
def inflateTry
    (req : InflReq) (resp : InflResp) : InflExec :=
  if resp.needDict then .needDict
  else if resp.failed then .failed
  else .done ⟨req, resp⟩

/-
  The loop over the tries. The second try is made only where
  the first, without the dictionary, did not see the end.
-/
def inflateExecute
    (flush : Flush)
    (env : InflateEnv)
    (s : InflStream) : InflExec × InflStream :=
  let req := inflateRequest s
  let s₁ := setInflateAsiv s
  if inflateSkipLastDict flush s then
    let first := { req with saveDict := false, outDictLen := 0 }
    match inflateTry first (env.accel 0 first) with
    | .done ex =>
      if finalEob ex.resp.inflStat then (.done ex, s₁)
      else
        (inflateTry req (env.accel 1 req),
          inflateSaveDict req (env.accel 1 req) s₁)
    | other => (other, s₁)
  else
    (inflateTry req (env.accel 0 req),
      inflateSaveDict req (env.accel 0 req) s₁)

------------------------------------------------------------
-- The Results
------------------------------------------------------------

/- `get_inflate_asv` -/
def getInflateAsv (resp : InflResp) (s : InflStream) :
    InflStream :=
  { s with
    asv :=
      { inpProcessed := resp.inpProcessed.toNat
        outpReturned := resp.outpReturned.toNat
        procBits := resp.procBits.toNat
        inflStat := resp.inflStat
        hdrStart :=
          if resp.inpProcessed ≠ 0 ∨ resp.procBits ≠ 0 then
            resp.hdrStart.toNat
          else s.asv.hdrStart
        outHdrBits :=
          if resp.inpProcessed ≠ 0 ∨ resp.procBits ≠ 0 then
            resp.outHdrBits.toNat
          else s.asv.outHdrBits
        outHdrStartBits :=
          if resp.inpProcessed ≠ 0 ∨ resp.procBits ≠ 0 then
            resp.hdrStartBits.toNat
          else s.asv.outHdrStartBits
        copyblockLen := resp.copyblockLen }
    crc32 := resp.outCrc32
    adler32 := resp.outAdler32
    dict :=
      { s.dict with
        dictLen := resp.outDictUsed.toNat
        outDictOffs := resp.outDictOffs.toNat
        obytesInDict := resp.obytesInDict.toNat } }

/- The output is where the caller wanted it. -/
def inflateStore (ex : InflExchange) (s : InflStream) :
    InflStream :=
  { s with
    nextOut :=
      s.nextOut ++ ex.resp.outBuff.window 0 s.asv.outpReturned
    availOut := s.availOut - s.asv.outpReturned
    totalOut := s.totalOut + s.asv.outpReturned }

/- Behind the sanity checks: the end of the final block. -/
def inflateFinish (s : InflStream) : Rc × InflStream :=
  let s₁ := inflateEobSeen (s.advance s.inpDataOffs)
  if s₁.eobSeen then inflateTrailer s₁ else (.ok, s₁)

/- The checks of the results. -/
def inflateCheck
    (ex : InflExchange) (rc : Rc) (s : InflStream) :
    Rc × InflStream :=
  if rc.IsNegative then (.streamError, s)
  else if s.asv.outpReturned > s.availOut then
    (.streamError, s)
  else if s.inpDataOffs > s.availIn then
    (.streamError, inflateStore ex s)
  else inflateFinish (inflateStore ex s)

/- The DDCB and all that stands behind it. -/
def inflateSubmit
    (flush : Flush) (env : InflateEnv) (s : InflStream) :
    Option InflRet :=
  match inflateExecute flush env s with
  | (.needDict, s₁) =>
    some ⟨.needDict, { s₁ with adler32 := s₁.dictAdler32 },
      none⟩
  | (.failed, s₁) => some ⟨.streamError, s₁, none⟩
  | (.done ex, s₁) =>
    match postScratchUpd (getInflateAsv ex.resp s₁) with
    | none => none
    | some (rc, s₂) =>
      some ⟨(inflateCheck ex rc s₂).1,
        (inflateCheck ex rc s₂).2, some ex⟩

/- `zedc_inflate` -/
def zedcInflate
    (flush : Flush) (env : InflateEnv) (s : InflStream) :
    Option InflRet :=
  match inflatePrepare flush s with
  | none => none
  | some (.inl (rc, s₁)) => some ⟨rc, s₁, none⟩
  | some (.inr s₁) => inflateSubmit flush env s₁

------------------------------------------------------------
-- What Preparing Comes to
------------------------------------------------------------

/- The stream with `n` pending bytes given out. -/
def InflStream.giveOut (n : Nat) (s : InflStream) :
    InflStream :=
  { s with
    inpDataOffs := 0
    nextOut := s.nextOut ++ s.dict.pending.take n
    availOut := s.availOut - n
    totalOut := s.totalOut + n
    dict :=
      { s.dict with
        obytesInDict := s.dict.obytesInDict - n } }

/- All pending bytes are given out that there is space for. -/
structure Flushed (s s₁ : InflStream) (n : Nat) : Prop where
  pending : n ≤ s.dict.obytesInDict
  availOut : n ≤ s.availOut
  all : s.dict.obytesInDict = n ∨ s.availOut = n
  strm : s₁ = s.giveOut n

theorem inflateFlushOutputBuffer_spec (s : InflStream) :
    (∃ s₁ n,
      inflateFlushOutputBuffer { s with inpDataOffs := 0 } =
        (.ok, s₁) ∧ Flushed s s₁ n) ∨
    (inflateFlushOutputBuffer { s with inpDataOffs := 0 } =
        (.errDictOverrun, { s with inpDataOffs := 0 }) ∧
      s.dict.dictLen < s.dict.obytesInDict) := by
  unfold inflateFlushOutputBuffer
  simp only
  by_cases hNone : s.dict.obytesInDict = 0
  · rw [if_pos hNone]
    left
    refine ⟨_, 0, rfl, Nat.zero_le _, Nat.zero_le _,
      Or.inl hNone, ?_⟩
    simp [InflStream.giveOut]
  · rw [if_neg hNone]
    by_cases hOver : s.dict.dictLen < s.dict.obytesInDict
    · rw [if_pos hOver]
      exact Or.inr ⟨rfl, hOver⟩
    · rw [if_neg hOver]
      left
      refine ⟨_, min s.availOut s.dict.obytesInDict, rfl,
        by omega, by omega, by omega, rfl⟩

/- The header was removed, or there was none to remove. -/
def HeaderDone
    (flush : Flush) (s s₁ : InflStream) (rc : Rc) : Prop :=
  inflateHeader flush s = some (rc, s₁)

/- Neither the final block nor its end has been seen. -/
structure InData (s : InflStream) : Prop where
  eobSeen : s.eobSeen = false
  inflStat : finalEob s.asv.inflStat = false

/- The ways through the part before the DDCB. -/
inductive PrepareOutcome (flush : Flush) (s : InflStream) :
    Sum (Rc × InflStream) InflStream → Prop
  | tooLarge :
      s.availIn > zedcInflAvailInMax →
      PrepareOutcome flush s (.inl (.memError, s))
  | overrun :
      s.availIn ≤ zedcInflAvailInMax →
      s.dict.dictLen < s.dict.obytesInDict →
      PrepareOutcome flush s
        (.inl (.streamError, { s with inpDataOffs := 0 }))
  | trailer
      {s₁ : InflStream} {n : Nat} :
      s.availIn ≤ zedcInflAvailInMax →
      Flushed s s₁ n →
      (inflateEobSeen s₁).eobSeen = true →
      PrepareOutcome flush s
        (.inl (inflateTrailer (inflateEobSeen s₁)))
  | full
      {s₁ : InflStream} {n : Nat} :
      s.availIn ≤ zedcInflAvailInMax →
      Flushed s s₁ n →
      InData s₁ →
      s₁.availOut = 0 →
      PrepareOutcome flush s (.inl (.ok, s₁))
  | header
      {s₁ s₂ : InflStream} {n : Nat} {rc : Rc} :
      s.availIn ≤ zedcInflAvailInMax →
      Flushed s s₁ n →
      InData s₁ →
      s₁.availOut ≠ 0 →
      HeaderDone flush s₁ s₂ rc →
      rc ≠ .ok →
      PrepareOutcome flush s (.inl (rc, s₂))
  | block
      {s₁ s₂ : InflStream} {n : Nat} :
      s.availIn ≤ zedcInflAvailInMax →
      Flushed s s₁ n →
      InData s₁ →
      s₁.availOut ≠ 0 →
      HeaderDone flush s₁ s₂ .ok →
      s₂.dataType80 = true →
      PrepareOutcome flush s (.inl (.ok, s₂))
  | noInput
      {s₁ s₂ : InflStream} {n : Nat} :
      s.availIn ≤ zedcInflAvailInMax →
      Flushed s s₁ n →
      InData s₁ →
      s₁.availOut ≠ 0 →
      HeaderDone flush s₁ s₂ .ok →
      s₂.dataType80 = false →
      s₂.availIn = 0 →
      s₂.save.scratchBits = 0 →
      PrepareOutcome flush s
        (.inl (inflateChkRet s₂, s₂))
  | ready
      {s₁ s₂ : InflStream} {n : Nat} :
      s.availIn ≤ zedcInflAvailInMax →
      Flushed s s₁ n →
      InData s₁ →
      s₁.availOut ≠ 0 →
      HeaderDone flush s₁ s₂ .ok →
      s₂.dataType80 = false →
      ¬ (s₂.availIn = 0 ∧ s₂.save.scratchBits = 0) →
      PrepareOutcome flush s (.inr s₂)

theorem inflatePrepare_outcome
    {flush : Flush}
    {s : InflStream}
    {result : Sum (Rc × InflStream) InflStream}
    (hPrepare : inflatePrepare flush s = some result) :
    PrepareOutcome flush s result := by
  unfold inflatePrepare at hPrepare
  by_cases hLarge : s.availIn > zedcInflAvailInMax
  · rw [if_pos hLarge] at hPrepare
    cases hPrepare
    exact .tooLarge hLarge
  rw [if_neg hLarge] at hPrepare
  have hSmall := Nat.not_lt.mp hLarge
  rcases inflateFlushOutputBuffer_spec s with
    ⟨s₁, n, hOut, hFlushed⟩ | ⟨hOut, hOver⟩
  · rw [hOut] at hPrepare
    simp only [ne_eq, not_true_eq_false, if_false] at hPrepare
    unfold inflateEntry at hPrepare
    by_cases hEob : (inflateEobSeen s₁).eobSeen = true
    · rw [if_pos hEob] at hPrepare
      cases hPrepare
      exact .trailer hSmall hFlushed hEob
    · rw [if_neg hEob] at hPrepare
      have hData : InData s₁ ∧ inflateEobSeen s₁ = s₁ := by
        unfold inflateEobSeen at hEob ⊢
        cases hStat : finalEob s₁.asv.inflStat with
        | true => simp [hStat] at hEob
        | false =>
            simp only [hStat, Bool.false_eq_true, if_false,
              Bool.not_eq_true] at hEob
            exact ⟨⟨hEob, hStat⟩, by simp⟩
      rcases hData with ⟨hData, hSame⟩
      rw [hSame] at hPrepare
      by_cases hFull : s₁.availOut = 0
      · rw [if_pos hFull] at hPrepare
        cases hPrepare
        exact .full hSmall hFlushed hData hFull
      · rw [if_neg hFull] at hPrepare
        unfold inflatePrefix at hPrepare
        cases hHeader : inflateHeader flush s₁ with
        | none =>
            rw [hHeader] at hPrepare
            cases hPrepare
        | some taken =>
            rcases taken with ⟨rc, s₂⟩
            rw [hHeader] at hPrepare
            simp only at hPrepare
            by_cases hOk : rc = .ok
            · subst hOk
              rw [if_neg (by simp)] at hPrepare
              by_cases hBlock : s₂.dataType80 = true
              · rw [if_pos hBlock] at hPrepare
                cases hPrepare
                exact .block hSmall hFlushed hData hFull
                  hHeader hBlock
              · rw [if_neg hBlock] at hPrepare
                have hNoBlock := Bool.eq_false_iff.mpr hBlock
                by_cases hNone :
                    s₂.availIn = 0 ∧ s₂.save.scratchBits = 0
                · rw [if_pos hNone] at hPrepare
                  cases hPrepare
                  exact .noInput hSmall hFlushed hData hFull
                    hHeader hNoBlock hNone.1 hNone.2
                · rw [if_neg hNone] at hPrepare
                  cases hPrepare
                  exact .ready hSmall hFlushed hData hFull
                    hHeader hNoBlock hNone
            · rw [if_pos hOk] at hPrepare
              cases hPrepare
              exact .header hSmall hFlushed hData hFull
                hHeader hOk
  · rw [hOut] at hPrepare
    cases hPrepare
    exact .overrun hSmall hOver

------------------------------------------------------------
-- What a DDCB Comes to
------------------------------------------------------------

/- Behind an execution only the dictionary may differ. -/
theorem inflateExecute_strm
    (flush : Flush) (env : InflateEnv) (s : InflStream) :
    ∃ pages,
      (inflateExecute flush env s).2 =
        (setInflateAsiv s).withPages pages := by
  have hKept :
      setInflateAsiv s =
        (setInflateAsiv s).withPages
          (setInflateAsiv s).dict.dict := rfl
  have hSave :
      ∀ req resp,
        ∃ pages,
          inflateSaveDict req resp (setInflateAsiv s) =
            (setInflateAsiv s).withPages pages := by
    intro req resp
    unfold inflateSaveDict
    split
    · exact ⟨_, rfl⟩
    · exact ⟨_, hKept⟩
  unfold inflateExecute
  simp only
  split
  · split
    · split
      · exact ⟨_, hKept⟩
      · exact hSave (inflateRequest s) _
    · exact ⟨_, hKept⟩
  · exact hSave (inflateRequest s) _

/-
  A completed execution is one of the request, saving the
  dictionary or leaving it out at the end of the stream.
-/
theorem inflateExecute_done
    {flush : Flush}
    {env : InflateEnv}
    {s s₁ : InflStream}
    {ex : InflExchange}
    (hExec : inflateExecute flush env s = (.done ex, s₁)) :
    (∃ saveDict outDictLen,
      ex.req =
        { inflateRequest s with
          saveDict := saveDict
          outDictLen := outDictLen }) ∧
    ¬ ex.resp.rc < 0 ∧
    ex.resp.retc = ddcbRetcComplete := by
  have hTry :
      ∀ req resp,
        inflateTry req resp = .done ex →
          ex = ⟨req, resp⟩ ∧ ¬ resp.rc < 0 ∧
            resp.retc = ddcbRetcComplete := by
    intro req resp hDone
    unfold inflateTry at hDone
    split at hDone
    · cases hDone
    · split at hDone
      · cases hDone
      · rename_i hOk
        cases hDone
        unfold InflResp.failed at hOk
        simp only [Bool.or_eq_true, decide_eq_true_eq,
          bne_iff_ne, ne_eq, not_or, not_not] at hOk
        exact ⟨rfl, hOk.1, hOk.2⟩
  have hWhole :
      ∀ resp,
        inflateTry (inflateRequest s) resp = .done ex →
          (∃ saveDict outDictLen,
            ex.req =
              { inflateRequest s with
                saveDict := saveDict
                outDictLen := outDictLen }) ∧
          ¬ ex.resp.rc < 0 ∧
          ex.resp.retc = ddcbRetcComplete := by
    intro resp hDone
    rcases hTry _ _ hDone with ⟨rfl, hOk⟩
    exact ⟨⟨true, zedcDictLen, rfl⟩, hOk⟩
  unfold inflateExecute at hExec
  simp only at hExec
  split at hExec
  · split at hExec
    · rename_i ex' hDone
      split at hExec
      · cases hExec
        rcases hTry _ _ hDone with ⟨rfl, hOk⟩
        exact ⟨⟨false, 0, rfl⟩, hOk⟩
      · exact hWhole _ (congrArg Prod.fst hExec)
    · rename_i hOther
      have hFirst := congrArg Prod.fst hExec
      simp only at hFirst
      exact absurd hFirst (hOther ex)
  · exact hWhole _ (congrArg Prod.fst hExec)

/- The ways through a DDCB. -/
inductive SubmitInflOutcome
    (flush : Flush) (env : InflateEnv) (s : InflStream) :
    InflRet → Prop
  | needDict
      {s₁ : InflStream} :
      inflateExecute flush env s = (.needDict, s₁) →
      SubmitInflOutcome flush env s
        ⟨.needDict, { s₁ with adler32 := s₁.dictAdler32 },
          none⟩
  | failed
      {s₁ : InflStream} :
      inflateExecute flush env s = (.failed, s₁) →
      SubmitInflOutcome flush env s ⟨.streamError, s₁, none⟩
  | done
      {s₁ s₂ : InflStream} {ex : InflExchange} {rc : Rc} :
      inflateExecute flush env s = (.done ex, s₁) →
      postScratchUpd (getInflateAsv ex.resp s₁) =
        some (rc, s₂) →
      SubmitInflOutcome flush env s
        ⟨(inflateCheck ex rc s₂).1,
          (inflateCheck ex rc s₂).2, some ex⟩

theorem inflateSubmit_outcome
    {flush : Flush}
    {env : InflateEnv}
    {s : InflStream}
    {ret : InflRet}
    (hSubmit : inflateSubmit flush env s = some ret) :
    SubmitInflOutcome flush env s ret := by
  unfold inflateSubmit at hSubmit
  generalize hExec : inflateExecute flush env s = exec
    at hSubmit
  rcases exec with ⟨_ | _ | ex, s₁⟩
  · cases hSubmit
    exact .needDict hExec
  · cases hSubmit
    exact .failed hExec
  · simp only at hSubmit
    cases hUpdate :
        postScratchUpd (getInflateAsv ex.resp s₁) with
    | none =>
        rw [hUpdate] at hSubmit
        cases hSubmit
    | some result =>
        rcases result with ⟨rc, s₂⟩
        rw [hUpdate] at hSubmit
        cases hSubmit
        exact .done hExec hUpdate

end Zedc
