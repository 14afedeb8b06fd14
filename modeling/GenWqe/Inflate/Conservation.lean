import GenWqe.Inflate.Honest

/-
  No compressed bit is lost or repeated across the DDCBs of an
  inflate stream.

  Key definitions include:
    * `BitsConserved` and `HdrKept`
    * `consumedBits`
    * `Accounted`

  Main results:
    * `bitsConserved_iff`
    * `accounted_step`
    * `bits_conserved_iff`
    * `header_in_scratch_lost`
-/

------------------------------------------------------------
-- One Update
------------------------------------------------------------

namespace Zedc

open Bits

/- The bits behind the new header that are moved with it. -/
def InflExchange.foundBits
    (ex : InflExchange) : List Bool :=
  ((bitsOf
    (ex.req.inpScratch.window ex.req.scratchStart
      ex.req.scratchLen ++ ex.req.inBuff)).drop
        ex.hdrAt).take ex.resp.outHdrBits.toNat

/- The header that is kept. -/
def InflExchange.keptHeader
    (ex : InflExchange) : List Bool :=
  if ex.cut then
    bitsOf
      (storedHeader (hdrBfinal ex.resp.inflStat)
        ex.resp.copyblockLen)
  else if ex.found then ex.foundBits
  else if passedEob ex.resp.inflStat then []
  else ex.req.header

/-
  The new header is moved, and its bits are read from the
  scratch and the input, not from the old header.
-/
structure HdrKept (ex : InflExchange) : Prop
    extends HdrMoves ex where
  bits :
    ex.cut = false →
      ex.foundBits =
        (ex.req.offered.drop ex.resp.hdrStartTotal).take
          ex.resp.outHdrBits.toNat

/-
  The save area holds the header to go on with, and behind it
  and in the rest of the input is what was not processed.
-/
def BitsConserved
    (ex : InflExchange) (t : InflStream) : Prop :=
  ∃ s',
    postScratchUpd t = some (.ok, s') ∧
      s'.save.header = ex.stopHeader ∧
      s'.pending = ex.req.offered.drop ex.resp.processed

section Update

variable {s s' : InflStream} {ex : InflExchange}
variable {pages : Bool → ByteMem}

theorem RequestParts.foundBits
    (hParts : RequestParts s ex)
    (hAns : Answered (s.answered pages ex.resp) ex) :
    (s.answered pages ex.resp).foundBits =
      ex.foundBits := by
  unfold InflStream.foundBits InflExchange.foundBits
  rw [hAns.hdrAt, hAns.outHdrBits, hParts.tree,
    hParts.scratchStart, hParts.scratchLen, hParts.inBuff]
  rfl

/- With something processed, what the update comes to. -/
theorem postScratchUpd_some_iff
    (pages : Bool → ByteMem)
    (hReq : Requesting s)
    (hParts : RequestParts s ex)
    (hHonest : HonestExchange ex)
    (hFits : FitsBuffer ex)
    (hMore : finalEob ex.resp.inflStat = false)
    (hSome : ex.resp.processed ≠ 0) :
    ((∃ result,
        postScratchUpd (s.answered pages ex.resp) =
          some result) ↔
      (ex.found = true → HdrMoves ex)) ∧
    ∀ rc s',
      postScratchUpd (s.answered pages ex.resp) =
        some (rc, s') →
      rc = .ok ∧
        Conserved (s.answered pages ex.resp) s' ∧
        s'.save.header = ex.keptHeader := by
  have hAns := hParts.answered hReq pages hSome
  have hFoundBits := hParts.foundBits hAns
  have hNoted :
      (s.answered pages ex.resp).asv.inpProcessed ≠ 0 ∨
        (s.answered pages ex.resp).asv.procBits ≠ 0 := by
    have hProc := hAns.processed
    unfold InflStream.processed at hProc
    omega
  -- the input used is only looked at behind the final block
  rcases hHonest.noted hParts hReq pages hSome
    (inpProcUpdate
      (s.answered pages ex.resp).asv.inpProcessed
      (s.answered pages ex.resp).asv.procBits
      (s.answered pages ex.resp).preScratchBits) with
    ⟨hOff', hAsv', hAns'⟩
  generalize ht : s.answered pages ex.resp = t at *
  have hUpd :
      postScratchUpd t =
        (setupTree
            { t with
              inDataUsed :=
                inpProcUpdate t.asv.inpProcessed
                  t.asv.procBits t.preScratchBits }).map
          fun s₁ => (.ok, restoreStored s₁) := by
    unfold postScratchUpd
    rw [if_pos hNoted]
    cases setupTree _ <;> rfl
  generalize hUsed :
      { t with
        inDataUsed :=
          inpProcUpdate t.asv.inpProcessed t.asv.procBits
            t.preScratchBits } = t' at *
  have hMore' :
      (passedEob t'.asv.inflStat &&
        finalEob t'.asv.inflStat) = false := by
    rw [hAns'.inflStat, hMore, Bool.and_false]
  have hIff :
      ∀ s₁, setupTree t' = some s₁ ↔
        SaveFits t' ∧
          s₁ =
            t'.ready.withScratch t'.save.scratchStart
              t'.save.scratchLen :=
    fun s₁ => setupTree_some_iff hOff' hAsv' hMore'
  have hSaveFits :
      SaveFits t' ↔ (ex.found = true → HdrMoves ex) := by
    constructor
    · intro hSave hFound
      exact ((hAns'.movable_iff hFound).mp
        (hSave.movable (hAns'.found.trans hFound))).1
    · intro hMoves
      refine ⟨fun hIs => ?_,
        hAns'.hasRoom_iff.mpr hFits.scratch⟩
      have hFound := hAns'.found.symm.trans hIs
      exact (hAns'.movable_iff hFound).mpr
        ⟨hMoves hFound, hFits.header hFound⟩
  rw [hUpd]
  constructor
  · rw [← hSaveFits]
    constructor
    · rintro ⟨result, hResult⟩
      cases hSetup : setupTree t' with
      | none =>
          rw [hSetup] at hResult
          cases hResult
      | some s₁ => exact ((hIff s₁).mp hSetup).1
    · intro hSave
      rw [(hIff _).mpr ⟨hSave, rfl⟩]
      exact ⟨_, rfl⟩
  · intro rc s' hResult
    cases hSetup : setupTree t' with
    | none =>
        rw [hSetup] at hResult
        cases hResult
    | some s₁ =>
        rw [hSetup] at hResult
        cases hResult
        have hUpdated :=
          setupTree_spec hOff' hAsv' hMore' hSetup
        rcases hUpdated.restore (by
          rw [hAns'.cut, hAns'.stopHdrBits]
          exact hHonest.stored) with ⟨hKept, hHeader⟩
        refine ⟨rfl, ?_, ?_⟩
        · rw [← hUsed] at hKept
          exact ⟨hKept.save, hKept.pending,
            hKept.inpDataOffs, hKept.strm, hKept.inflStat,
            hKept.outpReturned⟩
        · have hFoundBits' : t'.foundBits = ex.foundBits := by
            rw [← hUsed]
            exact hFoundBits
          rw [hHeader]
          unfold InflStream.keptHeader InflStream.keptHdr
            InflExchange.keptHeader
          rw [hAns'.cut, hAns'.found, hAns'.inflStat,
            hAns'.copyblockLen, hAns'.header, hFoundBits']

/- With nothing processed, the input joins the scratch. -/
theorem postScratchUpd_nothing
    (pages : Bool → ByteMem)
    (hReq : Requesting s)
    (hParts : RequestParts s ex)
    (hHonest : HonestExchange ex)
    (hFits : FitsBuffer ex)
    (hNone : ex.resp.processed = 0) :
    ∃ s',
      postScratchUpd (s.answered pages ex.resp) =
          some (.ok, s') ∧
        Conserved (s.answered pages ex.resp) s' ∧
        s'.save.header = ex.stopHeader := by
  have hOff := hReq.offered pages ex.resp
  have hBehind := hHonest.behind
  rw [hNone, hParts.inHdrBits] at hBehind
  have hTree : s.save.treeBits = 0 := by omega
  have hNoBits :
      (s.answered pages ex.resp).inHdrBits = 0 := by
    rw [hOff.inHdrBits]
    exact hTree
  have hRoom := hFits.nothing hNone
  rw [hParts.inScratchLen, hParts.inBuff] at hRoom
  have hLen :
      (s.answered pages ex.resp).inHdrScratchLen +
        (s.answered pages ex.resp).availIn ≤
          zedcTreeLen := by
    rw [hOff.len]
    exact hRoom
  have hProc :
      (s.answered pages ex.resp).processed = 0 := by
    rw [processed_answered, hNone]
  have hNoCut :
      (s.answered pages ex.resp).asv.copyblockLen = 0 :=
    hHonest.nothing hNone
  have hHeader : ex.stopHeader = [] := by
    unfold InflExchange.stopHeader
    rw [if_pos hNone]
    apply List.eq_nil_of_length_eq_zero
    rw [hParts.header, SaveArea.length_header, hTree]
  have hUpd :
      postScratchUpd (s.answered pages ex.resp) =
        collectScratch (s.answered pages ex.resp) := by
    unfold postScratchUpd
    unfold InflStream.processed at hProc
    rw [if_neg (by omega)]
  rw [hUpd, hHeader]
  generalize s.answered pages ex.resp = t at *
  have hOk : ∃ s', collectScratch t = some (.ok, s') := by
    have hAvail := hOff.availIn
    have hWrap :
        wrapSub 32 zedcTreeLen t.inHdrScratchLen =
          zedcTreeLen - t.inHdrScratchLen :=
      wrapSub_of_le (by omega)
        (by unfold zedcTreeLen; omega)
    unfold collectScratch
    rw [hWrap, if_neg (by omega)]
    split
    · exact ⟨_, rfl⟩
    · rw [if_neg (by omega)]
      exact ⟨_, rfl⟩
  rcases hOk with ⟨s', hCollect⟩
  rcases collectScratch_spec hOff hNoBits hProc hNoCut
    hCollect with ⟨hKept, hEmpty, _⟩
  exact ⟨s', hCollect, hKept, hEmpty⟩

/-
  An update behind an honest response keeps header and bits
  exactly if a new header, if there is one, can be moved.
-/
theorem bitsConserved_iff
    (hReq : Requesting s)
    (hParts : RequestParts s ex)
    (hHonest : HonestExchange ex)
    (hFits : FitsBuffer ex)
    (hMore : finalEob ex.resp.inflStat = false) :
    BitsConserved ex (s.answered pages ex.resp) ↔
      (ex.resp.processed ≠ 0 → ex.found = true →
        HdrKept ex) := by
  have hOffered := hParts.offered pages
  have hProc := processed_answered pages ex.resp s
  by_cases hNone : ex.resp.processed = 0
  · rcases postScratchUpd_nothing pages hReq hParts hHonest
      hFits hNone with
      ⟨s', hUpd, hKept, hHeader⟩
    refine ⟨fun _ hSome => absurd hNone hSome,
      fun _ => ⟨s', hUpd, hHeader, ?_⟩⟩
    rw [hKept.pending, hOffered, hProc]
  · rcases postScratchUpd_some_iff pages hReq hParts hHonest
      hFits hMore hNone with ⟨hIff, hSpec⟩
    have hStop :
        ∀ hFound : ex.found = true,
          (ex.keptHeader = ex.stopHeader ↔
            (ex.cut = false →
              ex.foundBits =
                (ex.req.offered.drop
                  ex.resp.hdrStartTotal).take
                    ex.resp.outHdrBits.toNat)) := by
      intro hFound
      unfold InflExchange.keptHeader InflExchange.stopHeader
        InflExchange.stopHdr
      rw [if_neg hNone, if_pos hFound, if_pos hFound]
      cases ex.cut <;> simp
    constructor
    · rintro ⟨s', hUpd, hHeader, _⟩ _ hFound
      rcases hSpec _ _ hUpd with ⟨_, _, hKept⟩
      exact ⟨hIff.mp ⟨_, hUpd⟩ hFound,
        (hStop hFound).mp (hKept.symm.trans hHeader)⟩
    · intro hMoves
      rcases hIff.mpr (fun hFound =>
        (hMoves hNone hFound).toHdrMoves) with
        ⟨⟨rc, s'⟩, hUpd⟩
      rcases hSpec rc s' hUpd with ⟨rfl, hKept, hHeader⟩
      refine ⟨s', hUpd, ?_, ?_⟩
      · rw [hHeader]
        by_cases hFound : ex.found = true
        · exact (hStop hFound).mpr
            (hMoves hNone hFound).bits
        · unfold InflExchange.keptHeader
            InflExchange.stopHeader InflExchange.stopHdr
          rw [if_neg hNone, if_neg hFound, if_neg hFound]
      · rw [hKept.pending, hOffered, hProc]

end Update

------------------------------------------------------------
-- Accounting for a Run
------------------------------------------------------------

/- The bits decompressed in a run. -/
def consumedBits (trace : List InflateEvent) : List Bool :=
  (trace.filterMap InflateEvent.exchange).flatMap
    InflExchange.consumed

theorem consumedBits_append
    (trace : List InflateEvent)
    (event : InflateEvent) :
    consumedBits (trace ++ [event]) =
      consumedBits trace ++
        (match event.exchange with
        | none => []
        | some ex => ex.consumed) := by
  unfold consumedBits
  cases hEx : event.exchange <;> simp [hEx]

/-
  Behind the header, every bit of the stream that was taken is
  either decompressed or waits in the scratch.
-/
structure Accounted
    (src : ByteMem)
    (trace : List InflateEvent)
    (s : InflStream) : Prop where
  save : SaveOk s.save
  data : InData s
  mark : HeaderMark s
  header : s.prefx.idx ≤ s.totalIn
  begun :
    HeaderGone s ∨
      (s.totalIn = s.prefx.idx ∧ s.save.scratchBits = 0)
  bits :
    consumedBits trace ++ s.save.scratch =
      bitsOf
        (src.window s.prefx.idx (s.totalIn - s.prefx.idx))

/- An exchange before the final block that is honest. -/
structure HonestMore (ex : InflExchange) : Prop where
  honest : HonestExchange ex
  fits : FitsBuffer ex
  more : finalEob ex.resp.inflStat = false

theorem accounted_init
    (src : ByteMem) (s : InflStream) :
    Accounted src [] (inflateInitState s) := by
  have hStat : finalEob 0 = false := by decide
  have hSave : SaveOk (inflateInitState s).save := by
    refine ⟨?_, ?_, ?_, ?_⟩
    · constructor <;> simp [inflateInitState]
    · simp [inflateInitState]
    · simp [inflateInitState]
    · simp [inflateInitState]
  refine ⟨hSave, ⟨rfl, hStat⟩,
    ⟨fun _ => rfl, fun _ => rfl⟩, Nat.le_refl _,
    Or.inr ⟨rfl, rfl⟩, ?_⟩
  have hScratch : (inflateInitState s).save.scratch = [] := by
    apply List.eq_nil_of_length_eq_zero
    rw [hSave.length_scratch]
    rfl
  rw [hScratch]
  rfl

section Step

variable {src : ByteMem} {trace : List InflateEvent}
variable {s s' t s₂ : InflStream} {ex : InflExchange}

theorem Accounted.congr
    (hAcc : Accounted src trace s)
    (hSave : s'.save = s.save)
    (hFormat : s'.format = s.format)
    (hPrefx : s'.prefx = s.prefx)
    (hTotalIn : s'.totalIn = s.totalIn)
    (hEob : s'.eobSeen = s.eobSeen)
    (hAsv : s'.asv = s.asv) :
    Accounted src trace s' := by
  refine ⟨?_, ⟨?_, ?_⟩, hAcc.mark.congr hFormat hPrefx,
    ?_, ?_, ?_⟩
  · rw [hSave]
    exact hAcc.save
  · rw [hEob]
    exact hAcc.data.eobSeen
  · rw [hAsv]
    exact hAcc.data.inflStat
  · rw [hPrefx, hTotalIn]
    exact hAcc.header
  · unfold HeaderGone
    rw [hFormat, hPrefx, hTotalIn, hSave]
    exact hAcc.begun
  · rw [hSave, hPrefx, hTotalIn]
    exact hAcc.bits

/- Removing the header takes no bit of the data. -/
theorem Accounted.idle
    {k : Nat}
    (hAcc : Accounted src trace s)
    (hIdle : Idle s s' k) :
    Accounted src trace s' := by
  have hSave : s'.save = s.save :=
    (congrArg InflStream.save hIdle.strm :)
  have hEob : s'.eobSeen = s.eobSeen :=
    (congrArg InflStream.eobSeen hIdle.strm :)
  have hAsv : s'.asv = s.asv :=
    (congrArg InflStream.asv hIdle.strm :)
  have hTotalIn : s'.totalIn = s.totalIn + k :=
    (congrArg InflStream.totalIn hIdle.strm :)
  have hIdx := hIdle.idx
  have hHeader := hAcc.header
  have hBits := hAcc.bits
  have hData : InData s' :=
    ⟨hEob.trans hAcc.data.eobSeen,
      by rw [hAsv]; exact hAcc.data.inflStat⟩
  have hSaveOk : SaveOk s'.save := by
    rw [hSave]
    exact hAcc.save
  rcases hAcc.begun with hGone | ⟨hStart, hEmpty⟩
  · rcases hIdle.gone hGone with ⟨hZero, hGone'⟩
    rw [hZero, Nat.add_zero] at hTotalIn hIdx
    refine ⟨hSaveOk, hData, hIdle.mark, ?_, Or.inl hGone', ?_⟩
    · omega
    · rw [hSave, hIdx, hTotalIn]
      exact hBits
  · have hNone : s.totalIn - s.prefx.idx = 0 := by omega
    have hNone' : s'.totalIn - s'.prefx.idx = 0 := by omega
    refine ⟨hSaveOk, hData, hIdle.mark, by omega,
      Or.inr ⟨by omega, by rw [hSave]; exact hEmpty⟩, ?_⟩
    rw [hSave, hBits, hNone, hNone']
    rfl

/- Behind a conserving update, the results are accepted. -/
theorem inflateCheck_conserved
    (hKept : Conserved t s₂)
    (hData : InData t)
    (hOut : t.asv.outpReturned ≤ t.availOut) :
    inflateCheck ex .ok s₂ = (.ok, s₂.taken ex) := by
  have hAvailOut : s₂.availOut = t.availOut :=
    (congrArg InflStream.availOut hKept.strm :)
  have hNextIn : s₂.nextIn = t.nextIn :=
    (congrArg InflStream.nextIn hKept.strm :)
  have hEob : s₂.eobSeen = t.eobSeen :=
    (congrArg InflStream.eobSeen hKept.strm :)
  have hData₂ : InData s₂ :=
    ⟨hEob.trans hData.eobSeen,
      by rw [hKept.inflStat]; exact hData.inflStat⟩
  have hOffs := hKept.inpDataOffs
  have hAvailIn : s₂.availIn = t.availIn :=
    congrArg List.length hNextIn
  unfold inflateCheck
  rw [if_neg (by decide), if_neg, if_neg]
  · exact inflateFinish_more ex hData₂
  · rw [hAvailIn]
    exact Nat.not_lt.mpr hOffs
  · rw [hKept.outpReturned, hAvailOut]
    exact Nat.not_lt.mpr hOut

/-
  What an update leaves, and what it decompresses, is what was
  there with the input taken.
-/
theorem Conserved.consumed
    (hParts : RequestParts s ex)
    (hHonest : HonestExchange ex)
    {pages : Bool → ByteMem}
    (hKept : Conserved (s.answered pages ex.resp) s₂) :
    ex.consumed ++ s₂.save.scratch =
      s.save.scratch ++
        bitsOf (s.nextIn.take s₂.inpDataOffs) := by
  have hNextIn : s₂.nextIn = s.nextIn :=
    (congrArg InflStream.nextIn hKept.strm :)
  have hHeader : ex.req.header.length = ex.req.inHdrBits := by
    rw [hParts.header, SaveArea.length_header,
      hParts.inHdrBits]
  have hPending := hKept.pending
  rw [← hParts.offered, processed_answered] at hPending
  unfold InflReq.offered at hPending
  rw [List.drop_append, hHeader,
    List.drop_eq_nil_of_le
      (by rw [hHeader]; exact hHonest.behind),
    List.nil_append] at hPending
  unfold InflStream.pending at hPending
  rw [hNextIn] at hPending
  have hAll :
      (ex.consumed ++ s₂.save.scratch) ++
          bitsOf (s.nextIn.drop s₂.inpDataOffs) =
        (s.save.scratch ++
            bitsOf (s.nextIn.take s₂.inpDataOffs)) ++
          bitsOf (s.nextIn.drop s₂.inpDataOffs) := by
    rw [List.append_assoc, hPending, List.append_assoc,
      ← bitsOf_append, List.take_append_drop,
      ← hParts.data]
    exact List.take_append_drop _ _
  exact List.append_cancel_right hAll

/- An honest response before the end loses no bit. -/
theorem Accounted.done
    {pages : Bool → ByteMem}
    {rc : Rc}
    (hAcc : Accounted src trace s)
    (hGone : HeaderGone s)
    (hFed : FedFrom src s)
    (hReq : Requesting s)
    (hParts : RequestParts s ex)
    (hMore : HonestMore ex)
    (hUpdate :
      postScratchUpd (s.answered pages ex.resp) =
        some (rc, s₂)) :
    rc = .ok ∧
      Conserved (s.answered pages ex.resp) s₂ ∧
      inflateCheck ex rc s₂ = (.ok, s₂.taken ex) ∧
      ∀ event : InflateEvent,
        event.exchange = some ex →
        Accounted src (trace ++ [event]) (s₂.taken ex) := by
  have hKept :
      rc = .ok ∧
        Conserved (s.answered pages ex.resp) s₂ := by
    by_cases hNone : ex.resp.processed = 0
    · rcases postScratchUpd_nothing pages hReq hParts
        hMore.honest hMore.fits hNone with
        ⟨s₃, hUpd, hKept, _⟩
      rw [hUpdate] at hUpd
      cases hUpd
      exact ⟨rfl, hKept⟩
    · rcases postScratchUpd_some_iff pages hReq hParts
        hMore.honest hMore.fits hMore.more hNone with
        ⟨_, hSpec⟩
      rcases hSpec rc s₂ hUpdate with ⟨hRc, hKept, _⟩
      exact ⟨hRc, hKept⟩
  rcases hKept with ⟨rfl, hKept⟩
  have hStat : finalEob ex.resp.inflStat = false := hMore.more
  have hDataT : InData (s.answered pages ex.resp) :=
    ⟨hAcc.data.eobSeen, hStat⟩
  have hOut :
      (s.answered pages ex.resp).asv.outpReturned ≤
        (s.answered pages ex.resp).availOut := by
    have hLe := hMore.honest.outpReturned
    rw [hParts.outBuffLen] at hLe
    exact hLe
  refine ⟨rfl, hKept,
    inflateCheck_conserved hKept hDataT hOut,
    fun event hEvent => ?_⟩
  have hStrm := hKept.strm
  have hPrefx : s₂.prefx = s.prefx :=
    (congrArg InflStream.prefx hStrm :)
  have hFormat : s₂.format = s.format :=
    (congrArg InflStream.format hStrm :)
  have hEob : s₂.eobSeen = s.eobSeen :=
    (congrArg InflStream.eobSeen hStrm :)
  have hTotalIn : s₂.totalIn = s.totalIn :=
    (congrArg InflStream.totalIn hStrm :)
  have hHeader := hAcc.header
  have hOffs : s₂.inpDataOffs ≤ s.nextIn.length :=
    hKept.inpDataOffs
  have hConsumed := hKept.consumed hParts hMore.honest
  refine ⟨hKept.save, ⟨?_, ?_⟩, ?_, ?_, ?_, ?_⟩
  · exact hEob.trans hAcc.data.eobSeen
  · show finalEob s₂.asv.inflStat = false
    rw [hKept.inflStat]
    exact hStat
  · exact hAcc.mark.congr hFormat hPrefx
  · show s₂.prefx.idx ≤ s₂.totalIn + s₂.inpDataOffs
    rw [hPrefx, hTotalIn]
    omega
  · left
    unfold HeaderGone
    show s₂.format = .defl ∨
      s₂.prefx.headerState = .headerDone
    rw [hFormat, hPrefx]
    exact hGone
  · rw [consumedBits_append, hEvent]
    show (consumedBits trace ++ ex.consumed) ++
        s₂.save.scratch =
      bitsOf (src.window s₂.prefx.idx
        (s₂.totalIn + s₂.inpDataOffs - s₂.prefx.idx))
    have hLen :
        s.totalIn + s₂.inpDataOffs - s.prefx.idx =
          (s.totalIn - s.prefx.idx) + s₂.inpDataOffs := by
      omega
    have hAt :
        s.prefx.idx + (s.totalIn - s.prefx.idx) =
          s.totalIn := by
      omega
    rw [List.append_assoc, hConsumed, ← List.append_assoc,
      hAcc.bits, hPrefx, hTotalIn, hLen, ByteMem.window_add,
      hAt, bitsOf_append, hFed.take hOffs]

/- A stream that goes on to a DDCB makes a request. -/
theorem Accounted.requesting
    {k : Nat}
    (hAcc : Accounted src trace s')
    (hIdle : Idle s s' k)
    (hSmall : s.availIn ≤ zedcInflAvailInMax) :
    Requesting s' := by
  have hNextIn : s'.nextIn = s.nextIn.drop k :=
    (congrArg InflStream.nextIn hIdle.strm :)
  refine ⟨hAcc.save, ?_,
    (congrArg InflStream.inpDataOffs hIdle.strm :)⟩
  unfold InflStream.availIn at hSmall ⊢
  rw [hNextIn, List.length_drop]
  omega

theorem Accounted.gone
    (hAcc : Accounted src trace s)
    (hSome : ¬ (s.availIn = 0 ∧ s.save.scratchBits = 0))
    (hGone : HeaderGone s ∨ s.nextIn = []) :
    HeaderGone s := by
  rcases hGone with hGone | hNone
  · exact hGone
  · rcases hAcc.begun with hGone | ⟨_, hEmpty⟩
    · exact hGone
    · exact absurd
        ⟨by unfold InflStream.availIn; rw [hNone]; rfl,
          hEmpty⟩ hSome

/-
  A call that has got results: the stream `s₁` at the request,
  and `s₂` behind the update of the save area.
-/
structure Sent
    (src : ByteMem)
    (trace : List InflateEvent)
    (s : InflStream)
    (event : InflateEvent)
    (s' : InflStream)
    (s₁ s₂ : InflStream)
    (ex : InflExchange)
    (rc : Rc)
    (pages : Bool → ByteMem) : Prop where
  accounted : Accounted src trace s₁
  gone : HeaderGone s₁
  fed : FedFrom src s₁
  requesting : Requesting s₁
  parts : RequestParts s₁ ex
  postfx : s₁.postfx = s.postfx
  update :
    postScratchUpd (s₁.answered pages ex.resp) =
      some (rc, s₂)
  check : inflateCheck ex rc s₂ = (event.rc, s')
  exchange : event.exchange = some ex

/- A call in the blocks makes an exchange or leaves them. -/
theorem Accounted.call
    {event : InflateEvent}
    (hAcc : Accounted src trace s)
    (hStep : inflateStep src s event s') :
    (event.exchange = none ∧ event.rc ≠ .streamEnd ∧
      Accounted src trace s' ∧ s'.postfx = s.postfx) ∨
    ∃ s₁ s₂ ex rc pages,
      Sent src trace s event s' s₁ s₂ ex rc pages := by
  rcases event with ⟨call, rc, exchange⟩
  have hOffered :
      Accounted src trace (s.offer src call) :=
    hAcc.congr rfl rfl rfl rfl rfl rfl
  have hFed := fedFrom_offer src call s
  cases zedcInflate_called (fun _ => hOffered.mark) hStep with
  | prepared hPrepared =>
      left
      cases hPrepared with
      | refused hStrm hRc =>
          refine ⟨rfl, ?_, ?_, ?_⟩
          · rcases hRc with rfl | rfl <;> simp
          · rw [hStrm]
            exact hOffered.congr rfl rfl rfl rfl rfl rfl
          · rw [hStrm]
            rfl
      | idle hIdle hData hRc =>
          refine ⟨rfl, ?_, hOffered.idle hIdle,
            (congrArg InflStream.postfx hIdle.strm :)⟩
          rcases hRc with rfl | rfl | rfl <;> simp
      | trailer hFlushed hNot hTrailer =>
          exact absurd hOffered.data hNot
  | submitted hIdle hData hSmall hSome hGone hSubmitted =>
      have hAcc₁ := hOffered.idle hIdle
      have hPostfx :=
        (congrArg InflStream.postfx hIdle.strm :)
      cases hSubmitted with
      | tried hTried hRc =>
          left
          refine ⟨rfl, ?_, ?_, ?_⟩
          · rcases hRc with rfl | rfl <;> simp
          · rw [hTried.strm]
            exact hAcc₁.congr rfl rfl rfl rfl rfl rfl
          · rw [hTried.strm]
            exact hPostfx
      | done hUpdate hMade =>
          right
          have hReq := hAcc₁.requesting hIdle hSmall
          exact ⟨_, _, _, _, _, hAcc₁,
            hAcc₁.gone hSome hGone, hFed.of_idle hIdle,
            hReq, RequestOf.parts ⟨hMade⟩ hReq, hPostfx,
            hUpdate, rfl, rfl⟩

/- The bits are accounted for behind every call. -/
theorem accounted_step
    {event : InflateEvent}
    (hAcc : Accounted src trace s)
    (hFine :
      ∀ ex, event.exchange = some ex → HonestMore ex)
    (hStep : inflateStep src s event s') :
    Accounted src (trace ++ [event]) s' := by
  rcases hAcc.call hStep with
    ⟨hNone, _, hAcc', _⟩ | ⟨s₁, s₂, ex, rc, pages, hSent⟩
  · have hSame :
        consumedBits (trace ++ [event]) =
          consumedBits trace := by
      rw [consumedBits_append, hNone]
      exact List.append_nil _
    exact ⟨hAcc'.save, hAcc'.data, hAcc'.mark,
      hAcc'.header, hAcc'.begun,
      by rw [hSame]; exact hAcc'.bits⟩
  · have hDone :=
      hSent.accounted.done hSent.gone hSent.fed
        hSent.requesting hSent.parts
        (hFine ex hSent.exchange) hSent.update
    have hCheck := hSent.check
    rw [hDone.2.2.1] at hCheck
    have hTaken : s' = s₂.taken ex :=
      (congrArg Prod.snd hCheck).symm
    rw [hTaken]
    exact hDone.2.2.2 event hSent.exchange

end Step

------------------------------------------------------------
-- Every Run
------------------------------------------------------------

theorem accounted_of_run
    {src : ByteMem}
    {s₀ s : InflStream}
    {trace : List InflateEvent}
    (hRun :
      Run (inflateStep src) (inflateInitState s₀) trace s)
    (hFine :
      ∀ event ∈ trace, ∀ ex,
        event.exchange = some ex → HonestMore ex) :
    Accounted src trace s :=
  hRun.invariant_of_labels (Accounted src)
    (fun event => ∀ ex,
      event.exchange = some ex → HonestMore ex)
    (accounted_init src s₀)
    (fun _ _ _ _ hFine hAcc hStep =>
      accounted_step hAcc hFine hStep)
    hFine

/-
  In every run of honest responses, behind the header all bits
  taken are decompressed or wait in the scratch; and the next
  update keeps header and bits exactly if a new header can be
  moved as a whole.
-/
theorem bits_conserved_iff
    {src : ByteMem}
    {s₀ s : InflStream}
    {trace : List InflateEvent}
    (hRun :
      Run (inflateStep src) (inflateInitState s₀) trace s)
    (hFine :
      ∀ event ∈ trace, ∀ ex,
        event.exchange = some ex → HonestMore ex) :
    consumedBits trace ++ s.save.scratch =
      bitsOf
        (src.window s.prefx.idx (s.totalIn - s.prefx.idx)) ∧
    ∀ (call : InflateCall) s₁ s₂ ex,
      inflatePrepare call.flush (s.offer src call) =
        some (.inr s₁) →
      inflateExecute call.flush call.env s₁ =
        (.done ex, s₂) →
      HonestMore ex →
      (BitsConserved ex (getInflateAsv ex.resp s₂) ↔
        (ex.resp.processed ≠ 0 → ex.found = true →
          HdrKept ex)) := by
  have hAcc := accounted_of_run hRun hFine
  refine ⟨hAcc.bits, ?_⟩
  intro call s₁ s₂ ex hPrepare hExec hMore
  have hOffered :
      Accounted src trace (s.offer src call) :=
    hAcc.congr rfl rfl rfl rfl rfl rfl
  cases inflatePrepare_idle (fun _ => hOffered.mark)
      hPrepare with
  | ready hIdle hData hSmall hSome hGone =>
      have hAcc₁ := hOffered.idle hIdle
      have hReq := hAcc₁.requesting hIdle hSmall
      have hParts :=
        RequestOf.parts ⟨(inflateExecute_done hExec).1⟩ hReq
      rcases inflateExecute_tried hExec with ⟨pages, rfl⟩
      exact bitsConserved_iff hReq hParts hMore.honest
        hMore.fits hMore.more

------------------------------------------------------------
-- A Header inside the Scratch
------------------------------------------------------------

/- It has passed an empty block, and read the next header. -/
def nextBlockResp : InflResp :=
  { quietResp with
    inflStat := 0x21
    hdrStart := 1
    hdrStartBits := 2
    outHdrBits := 3
    inpProcessed := 8 }

/- It has just reached the end of a block. -/
def onEobResp : InflResp :=
  { quietResp with inflStat := 0x09, inpProcessed := 8 }

/- An empty block of ten bits, and a block behind it. -/
def twoBlocks : ByteMem := fun i =>
  [0x02, 0x08].getD i 0xff

def rawStream : InflStream :=
  inflateInitState (InflStream.zeroed .defl)

/- Eight bytes that are only collected. -/
def waitCall : InflateCall where
  availIn := 8
  availOut := 16
  flush := .noFlush
  env := ⟨fun _ _ => quietResp⟩

/- One byte more, for a card with a given answer. -/
def moreCall (resp : InflResp) : InflateCall where
  availIn := 1
  availOut := 16
  flush := .noFlush
  env := ⟨fun _ _ => resp⟩

/- The stream with eight bytes in the scratch. -/
def waitingStream : InflStream :=
  (waitCall.ret twoBlocks rawStream).strm

/- The exchange of the second call. -/
def moreExchange (resp : InflResp) : InflExchange :=
  ⟨inflateRequest
    { waitingStream.offer twoBlocks (moreCall resp) with
      inpDataOffs := 0 }, resp⟩

theorem honestMore_more
    {resp : InflResp}
    (hResp : resp = nextBlockResp ∨ resp = onEobResp) :
    HonestMore (moreExchange resp) := by
  rcases hResp with rfl | rfl
  · exact ⟨⟨by decide, by decide, by decide, by decide,
      by decide, by decide, by decide⟩,
      ⟨by decide, by decide, by decide⟩, by decide⟩
  · exact ⟨⟨by decide, by decide, by decide, by decide,
      by decide, by decide, by decide⟩,
      ⟨by decide, by decide, by decide⟩, by decide⟩

/- The exchange of the first call is honest as well. -/
theorem honestMore_wait :
    ∀ event ∈ [waitCall.event twoBlocks rawStream],
      ∀ ex, event.exchange = some ex → HonestMore ex := by
  intro event hEvent ex hEx
  rw [List.mem_singleton] at hEvent
  subst hEvent
  cases hEx
  exact ⟨⟨by decide, by decide, by decide, by decide,
    by decide, by decide, by decide⟩,
    ⟨by decide, by decide, by decide⟩, by decide⟩

theorem run_wait :
    Run (inflateStep twoBlocks) rawStream
      ([] ++ [waitCall.event twoBlocks rawStream])
      waitingStream :=
  Run.next Run.start (inflateStep_ret (by decide))

/- The stream that makes the second request. -/
def moreStream (resp : InflResp) : InflStream :=
  { waitingStream.offer twoBlocks (moreCall resp) with
    inpDataOffs := 0 }

/- The stream behind the request. -/
def moreSent (resp : InflResp) : InflStream :=
  (inflateExecute .noFlush ⟨fun _ _ => resp⟩
    (moreStream resp)).2

theorem prepare_more (resp : InflResp) :
    inflatePrepare .noFlush
        (waitingStream.offer twoBlocks (moreCall resp)) =
      some (.inr (moreStream resp)) := by
  have hFlush :
      inflateFlushOutputBuffer
          { waitingStream.offer twoBlocks
              (moreCall resp) with inpDataOffs := 0 } =
        (.ok, moreStream resp) := rfl
  have hStat :
      finalEob waitingStream.asv.inflStat = false := by
    decide
  have hAsv : (moreStream resp).asv = waitingStream.asv :=
    rfl
  have hSeen :
      inflateEobSeen (moreStream resp) =
        moreStream resp := by
    unfold inflateEobSeen
    rw [hAsv, hStat]
    rfl
  have hEntry :
      inflateEntry .noFlush (moreStream resp) =
        some (.inr (moreStream resp)) := rfl
  have hFew :
      ¬ (waitingStream.offer twoBlocks
          (moreCall resp)).availIn > zedcInflAvailInMax := by
    show ¬ (1 : Nat) > zedcInflAvailInMax
    decide
  unfold inflatePrepare
  rw [if_neg hFew, hFlush]
  simp only
  rw [if_neg (by simp), hSeen, hEntry]

theorem header_in_scratch_lost :
    Run (inflateStep twoBlocks) rawStream
        [waitCall.event twoBlocks rawStream]
        waitingStream ∧
    inflatePrepare .noFlush
        (waitingStream.offer twoBlocks
          (moreCall nextBlockResp)) =
      some (.inr (moreStream nextBlockResp)) ∧
    inflateExecute .noFlush ⟨fun _ _ => nextBlockResp⟩
        (moreStream nextBlockResp) =
      (.done (moreExchange nextBlockResp),
        moreSent nextBlockResp) ∧
    HonestMore (moreExchange nextBlockResp) ∧
    ¬ BitsConserved (moreExchange nextBlockResp)
        (getInflateAsv nextBlockResp
          (moreSent nextBlockResp)) := by
  refine ⟨run_wait, prepare_more _, rfl,
    honestMore_more (Or.inl rfl), ?_⟩
  rintro ⟨s', hUpd, _⟩
  have hFault :
      (postScratchUpd
        (getInflateAsv nextBlockResp
          (moreSent nextBlockResp))).isNone := by
    decide
  rw [hUpd] at hFault
  cases hFault

theorem bits_conserved_wait :
    consumedBits [waitCall.event twoBlocks rawStream] ++
        waitingStream.save.scratch =
      bitsOf (twoBlocks.window 0 8) ∧
    BitsConserved (moreExchange onEobResp)
      (getInflateAsv onEobResp (moreSent onEobResp)) := by
  have hBoth := bits_conserved_iff run_wait honestMore_wait
  constructor
  · exact hBoth.1
  · apply (hBoth.2 (moreCall onEobResp)
      (moreStream onEobResp) (moreSent onEobResp)
      (moreExchange onEobResp) (prepare_more _) rfl
      (honestMore_more (Or.inr rfl))).mpr
    intro _ hFound
    have hNone : (moreExchange onEobResp).found = false := by
      decide
    rw [hNone] at hFound
    cases hFound

end Zedc
