import GenWqe.Inflate.Calls

/-
  Behind the header nothing that was kept of it is used: a
  DDCB and a trailer come to the same with other values of
  it, and leave them.

  Key definitions include:
    * `InflStream.withPrefx`

  Main results:
    * `inflateSubmit_withPrefx`
    * `inflateTrailer_withPrefx`
-/

namespace Zedc

/- The stream with other values kept of the header. -/
def InflStream.withPrefx
    (p : Prefx) (s : InflStream) : InflStream :=
  { s with prefx := p }

/- The same of what a call returns. -/
def InflRet.withPrefx (p : Prefx) (ret : InflRet) : InflRet :=
  { ret with strm := ret.strm.withPrefx p }

/- The other values are there. -/
@[simp] theorem InflStream.prefx_withPrefx
    (p : Prefx)
    (s : InflStream) :
    (s.withPrefx p).prefx = p := rfl

/- With its own values the stream is the same. -/
theorem InflStream.withPrefx_self (s : InflStream) :
    s.withPrefx s.prefx = s := rfl

------------------------------------------------------------
-- The Save Area
------------------------------------------------------------

section SaveArea

variable (p : Prefx) (s : InflStream)

/- The new header is read from the scratch and the input only. -/
theorem extractNewTree_withPrefx :
    extractNewTree (s.withPrefx p) =
      (extractNewTree s).map (InflStream.withPrefx p) := by
  have hCopy :
      copyBehindTree (s.withPrefx p)
          (s.withPrefx p).treeCopy.1
          (s.withPrefx p).treeCopy.2.1
          (s.withPrefx p).treeCopy.2.2 =
        copyBehindTree s s.treeCopy.1 s.treeCopy.2.1
          s.treeCopy.2.2 := rfl
  unfold extractNewTree
  simp only
  rw [hCopy]
  cases copyBehindTree s s.treeCopy.1 s.treeCopy.2.1
    s.treeCopy.2.2 with
  | none => rfl
  | some tree => rfl

/- So is what is left behind it. -/
theorem scratchUpdate_withPrefx :
    scratchUpdate (s.withPrefx p) =
      (scratchUpdate s).map (InflStream.withPrefx p) := by
  have hCopy :
      copyBehindTree (s.withPrefx p)
          (s.withPrefx p).save.scratchTarget
          (s.withPrefx p).scratchTake.1
          (s.withPrefx p).scratchSrcOffs =
        copyBehindTree s s.save.scratchTarget
          s.scratchTake.1 s.scratchSrcOffs := rfl
  unfold scratchUpdate
  simp only
  rw [hCopy]
  cases copyBehindTree s s.save.scratchTarget
    s.scratchTake.1 s.scratchSrcOffs with
  | none => rfl
  | some tree => rfl

/- A block that ended gives up its header. -/
theorem setupTreeEob_withPrefx :
    setupTreeEob (s.withPrefx p) =
      (setupTreeEob s).withPrefx p := by
  unfold setupTreeEob
  change (if passedEob s.asv.inflStat then
    if reachedEob s.asv.inflStat then _ else _ else _) = _
  split
  · split <;> rfl
  · rfl

/- With a new header or with the one that is kept. -/
theorem setupTreeNew_withPrefx :
    setupTreeNew (s.withPrefx p) =
      (setupTreeNew s).map (InflStream.withPrefx p) := by
  unfold setupTreeNew
  rw [extractNewTree_withPrefx, scratchUpdate_withPrefx]
  -- `newHeader` is computed from the results
  change (if s.newHeader then _ else _) = _
  by_cases hNew : s.newHeader = true
  · rw [if_pos hNew, if_pos hNew]
    cases extractNewTree s with
    | none => rfl
    | some s₁ => exact scratchUpdate_withPrefx p s₁
  · rw [if_neg hNew, if_neg hNew]

/- `setup_tree` does not look at the GZIP or ZLIB header. -/
theorem setupTree_withPrefx :
    setupTree (s.withPrefx p) =
      (setupTree s).map (InflStream.withPrefx p) := by
  unfold setupTree
  rw [setupTreeEob_withPrefx, setupTreeNew_withPrefx]
  change (if passedEob s.asv.inflStat &&
    finalEob s.asv.inflStat then _ else _) = _
  split <;> rfl

/- A stored block that was cut gets a header of its own. -/
theorem restoreStored_withPrefx :
    restoreStored (s.withPrefx p) =
      (restoreStored s).withPrefx p := by
  unfold restoreStored
  change (if s.cutStored then _ else _) = _
  split <;> rfl

/- Nothing was processed, and the input is appended. -/
theorem collectScratch_withPrefx :
    collectScratch (s.withPrefx p) =
      (collectScratch s).map
        (Prod.map id (InflStream.withPrefx p)) := by
  unfold collectScratch
  rw [restoreStored_withPrefx]
  change (if s.availIn > wrapSub 32 zedcTreeLen
    s.inHdrScratchLen then _ else _) = _
  split
  · rfl
  · change (if s.availIn = 0 then _ else _) = _
    split
    · rfl
    · change (if s.inHdrScratchLen + s.availIn >
        zedcTreeLen then _ else _) = _
      split
      · rfl
      · exact congrArg (fun s' => some (Rc.ok, s'))
          (restoreStored_withPrefx p
            { s with
              inpDataOffs := s.inpDataOffs + s.availIn
              save :=
                { s.save with
                  tree := s.save.tree.store
                    s.inHdrScratchLen s.nextIn
                  scratchBits := s.save.scratchBits +
                    s.availIn * 8 } })

/- All of `post_scratch_upd`, of whichever results. -/
theorem postScratchUpd_withPrefx :
    postScratchUpd (s.withPrefx p) =
      (postScratchUpd s).map
        (Prod.map id (InflStream.withPrefx p)) := by
  unfold postScratchUpd
  rw [collectScratch_withPrefx]
  change (if s.asv.inpProcessed ≠ 0 ∨ s.asv.procBits ≠ 0
    then _ else _) = _
  split
  -- something was processed, and the tree is set up
  · have hSetup :
        setupTree
            { s.withPrefx p with
              inDataUsed :=
                inpProcUpdate (s.withPrefx p).asv.inpProcessed
                  (s.withPrefx p).asv.procBits
                  (s.withPrefx p).preScratchBits } =
          (setupTree
            { s with
              inDataUsed :=
                inpProcUpdate s.asv.inpProcessed
                  s.asv.procBits s.preScratchBits }).map
            (InflStream.withPrefx p) :=
      setupTree_withPrefx p
        { s with
          inDataUsed :=
            inpProcUpdate s.asv.inpProcessed s.asv.procBits
              s.preScratchBits }
    rw [hSetup]
    cases setupTree
      { s with
        inDataUsed :=
          inpProcUpdate s.asv.inpProcessed s.asv.procBits
            s.preScratchBits } with
    | none => rfl
    | some s₁ =>
        exact congrArg (fun s' => some (Rc.ok, s'))
          (restoreStored_withPrefx p s₁)
  · rfl

end SaveArea

------------------------------------------------------------
-- The Trailer
------------------------------------------------------------

section Trailer

variable (p : Prefx) (s : InflStream)

/- The CRC of the trailer is compared with that of the data. -/
theorem checkCrc32_withPrefx :
    checkCrc32 (s.withPrefx p) =
      Prod.map id (InflStream.withPrefx p)
        (checkCrc32 s) := by
  unfold checkCrc32
  simp only
  change (if readLe32 s.postfx.bytes 0 ≠ s.crc32 then _
    else _) = _
  split <;> rfl

/- The same at the end of the trailer, or with the ADLER32. -/
theorem checkTrailer_withPrefx :
    checkTrailer (s.withPrefx p) =
      Prod.map id (InflStream.withPrefx p)
        (checkTrailer s) := by
  unfold checkTrailer
  simp only
  change (if s.format = .gzip then _ else _) = _
  split
  · exact checkCrc32_withPrefx p
      { s with
        postfx :=
          { s.postfx with
            fileSize := readLe32 s.postfx.bytes 4 } }
  · change (if readBe32 s.postfx.bytes 0 ≠ s.adler32 then _
      else _) = _
    split <;> rfl

/- Behind a byte of the trailer both checks may be due. -/
theorem trailerChecks_withPrefx :
    trailerChecks (s.withPrefx p) =
      Prod.map id (InflStream.withPrefx p)
        (trailerChecks s) := by
  have hEarly :
      (if (s.withPrefx p).postfx.idx = 4 ∧
          (s.withPrefx p).format = .gzip then
        checkCrc32 (s.withPrefx p)
      else (none, s.withPrefx p)) =
        Prod.map id (InflStream.withPrefx p)
          (if s.postfx.idx = 4 ∧ s.format = .gzip then
            checkCrc32 s
          else (none, s)) := by
    rw [checkCrc32_withPrefx]
    change (if s.postfx.idx = 4 ∧ s.format = .gzip then _
      else _) = _
    split <;> rfl
  unfold trailerChecks
  simp only
  rw [hEarly]
  generalize (if s.postfx.idx = 4 ∧ s.format = .gzip then
    checkCrc32 s else (none, s)) = early
  rcases early with ⟨_ | rc, s₁⟩
  · change (if s₁.postfx.idx ≥ s₁.postfx.len then
      checkTrailer (s₁.withPrefx p) else _) = _
    rw [checkTrailer_withPrefx]
    simp only
    split <;> rfl
  · rfl

/- Byte by byte; what is left of the trailer is in `postfx`. -/
theorem remTrailerLoop_withPrefx
    (bs : List UInt8)
    (s : InflStream) :
    remTrailerLoop bs (s.withPrefx p) =
      Prod.map id (InflStream.withPrefx p)
        (remTrailerLoop bs s) := by
  induction bs generalizing s with
  | nil => rfl
  | cons b bs ih =>
      have hByte :
          trailerChecks ((s.withPrefx p).takeTrailerByte b) =
            Prod.map id (InflStream.withPrefx p)
              (trailerChecks (s.takeTrailerByte b)) :=
        trailerChecks_withPrefx p (s.takeTrailerByte b)
      unfold remTrailerLoop
      rw [hByte]
      change (if s.postfx.idx < s.postfx.len then _ else _) =
        _
      -- the loop goes on unless a check has failed
      split
      · rcases trailerChecks (s.takeTrailerByte b) with
          ⟨_ | rc, s₁⟩
        · exact ih s₁
        · rfl
      · rfl

/- The trailer is counted in its own fields only. -/
theorem inflateFormatRemTrailer_withPrefx :
    inflateFormatRemTrailer (s.withPrefx p) =
      Prod.map id (InflStream.withPrefx p)
        (inflateFormatRemTrailer s) := by
  have hPrepare :
      remTrailerPrepare (s.withPrefx p) =
        (remTrailerPrepare s).withPrefx p := by
    unfold remTrailerPrepare
    change (if s.postfx.len = 0 then _ else _) = _
    split <;> rfl
  have hLoop :
      remTrailerLoop (remTrailerPrepare (s.withPrefx p)).nextIn
          (remTrailerPrepare (s.withPrefx p)) =
        Prod.map id (InflStream.withPrefx p)
          (remTrailerLoop (remTrailerPrepare s).nextIn
            (remTrailerPrepare s)) := by
    rw [hPrepare]
    exact remTrailerLoop_withPrefx p _ _
  unfold inflateFormatRemTrailer
  simp only
  rw [hLoop]
  change (if s.format = .defl then _ else _) = _
  split
  · rfl
  · rcases remTrailerLoop (remTrailerPrepare s).nextIn
      (remTrailerPrepare s) with ⟨_ | rc, s₁⟩
    · change (if s₁.postfx.idx = s₁.postfx.len then _
        else _) = _
      simp only
      split <;> rfl
    · rfl

/- What a call behind the final block comes to. -/
theorem inflateTrailer_withPrefx :
    inflateTrailer (s.withPrefx p) =
      Prod.map id (InflStream.withPrefx p)
        (inflateTrailer s) := by
  unfold inflateTrailer
  rw [inflateFormatRemTrailer_withPrefx]
  rcases inflateFormatRemTrailer s with ⟨_ | _ | rc, s₁⟩
  · change (if s₁.dict.obytesInDict = 0 then _ else _) = _
    simp only
    split <;> rfl
  · rfl
  · rfl

end Trailer

------------------------------------------------------------
-- The DDCB
------------------------------------------------------------

section Ddcb

variable (p : Prefx) (s : InflStream)

/- The end of the final block is noted. -/
theorem inflateEobSeen_withPrefx :
    inflateEobSeen (s.withPrefx p) =
      (inflateEobSeen s).withPrefx p := by
  unfold inflateEobSeen
  change (if finalEob s.asv.inflStat then _ else _) = _
  split <;> rfl

/- The input is taken, and the trailer may follow at once. -/
theorem inflateFinish_withPrefx :
    inflateFinish (s.withPrefx p) =
      Prod.map id (InflStream.withPrefx p)
        (inflateFinish s) := by
  have hSeen :
      inflateEobSeen
          ((s.withPrefx p).advance
            (s.withPrefx p).inpDataOffs) =
        (inflateEobSeen (s.advance s.inpDataOffs)).withPrefx
          p :=
    inflateEobSeen_withPrefx p (s.advance s.inpDataOffs)
  unfold inflateFinish
  simp only
  rw [hSeen, inflateTrailer_withPrefx]
  change (if (inflateEobSeen
    (s.advance s.inpDataOffs)).eobSeen then _ else _) = _
  split <;> rfl

/- The checks of the results, and the output of the DDCB. -/
theorem inflateCheck_withPrefx
    (ex : InflExchange)
    (rc : Rc) :
    inflateCheck ex rc (s.withPrefx p) =
      Prod.map id (InflStream.withPrefx p)
        (inflateCheck ex rc s) := by
  have hStore :
      inflateFinish (inflateStore ex (s.withPrefx p)) =
        Prod.map id (InflStream.withPrefx p)
          (inflateFinish (inflateStore ex s)) :=
    inflateFinish_withPrefx p (inflateStore ex s)
  unfold inflateCheck
  rw [hStore]
  change (if rc.IsNegative then _
    else if s.asv.outpReturned > s.availOut then _
    else if s.inpDataOffs > s.availIn then _ else _) = _
  split
  · rfl
  · split
    · rfl
    · split <;> rfl

/-
  The request is the same, and so is the card's answer. Only
  its results and the dictionary page are written.
-/
theorem inflateExecute_withPrefx
    (flush : Flush)
    (env : InflateEnv) :
    inflateExecute flush env (s.withPrefx p) =
      Prod.map id (InflStream.withPrefx p)
        (inflateExecute flush env s) := by
  have hSave : ∀ req resp,
      inflateSaveDict req resp
          (setInflateAsiv (s.withPrefx p)) =
        (inflateSaveDict req resp
          (setInflateAsiv s)).withPrefx p := by
    intro req resp
    unfold inflateSaveDict
    split <;> rfl
  unfold inflateExecute
  simp only [hSave]
  change (if inflateSkipLastDict flush s then _ else _) = _
  split
  -- without a dictionary first, and once more with one
  · have hReq :
        inflateRequest (s.withPrefx p) = inflateRequest s :=
      rfl
    rw [hReq]
    cases inflateTry
      { inflateRequest s with
        saveDict := false
        outDictLen := 0 }
      (env.accel 0
        { inflateRequest s with
          saveDict := false
          outDictLen := 0 }) with
    | needDict => rfl
    | failed => rfl
    | done ex =>
        simp only
        split <;> rfl
  · rfl

/- A DDCB from its request to the return value of the call. -/
theorem inflateSubmit_withPrefx
    (flush : Flush)
    (env : InflateEnv) :
    inflateSubmit flush env (s.withPrefx p) =
      (inflateSubmit flush env s).map
        (InflRet.withPrefx p) := by
  unfold inflateSubmit
  rw [inflateExecute_withPrefx]
  rcases inflateExecute flush env s with ⟨_ | _ | ex, s₁⟩
  · rfl
  · rfl
  · have hUpdate :
        postScratchUpd
            (getInflateAsv ex.resp (s₁.withPrefx p)) =
          (postScratchUpd (getInflateAsv ex.resp s₁)).map
            (Prod.map id (InflStream.withPrefx p)) :=
      postScratchUpd_withPrefx p (getInflateAsv ex.resp s₁)
    simp only [Prod.map, id]
    rw [hUpdate]
    cases postScratchUpd (getInflateAsv ex.resp s₁) with
    | none => rfl
    | some result =>
        rcases result with ⟨rc, s₂⟩
        simp only [Option.map_some, Prod.map, id]
        rw [inflateCheck_withPrefx]
        rfl

end Ddcb

------------------------------------------------------------
-- The Header is Kept
------------------------------------------------------------

/- With its own values: the trailer leaves them. -/
theorem prefx_inflateTrailer (s : InflStream) :
    (inflateTrailer s).2.prefx = s.prefx := by
  have hSame := inflateTrailer_withPrefx s.prefx s
  rw [InflStream.withPrefx_self] at hSame
  rw [hSame]
  rfl

/- So does a DDCB. -/
theorem prefx_inflateSubmit
    {flush : Flush}
    {env : InflateEnv}
    {s : InflStream}
    {ret : InflRet}
    (hSubmit : inflateSubmit flush env s = some ret) :
    ret.strm.prefx = s.prefx := by
  have hSame := inflateSubmit_withPrefx s.prefx s flush env
  rw [InflStream.withPrefx_self, hSubmit] at hSame
  rw [Option.some.inj hSame]
  rfl

end Zedc
