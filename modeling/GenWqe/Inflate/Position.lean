import GenWqe.Inflate.Conservation
import GenWqe.Inflate.Verdict

/-
  Where in the stream the final block ends, and where the
  trailer is taken from.

  Key definitions include:
    * `HonestFinal` and `EndsBehindScratch`
    * `dataEnd`
    * `PositionExact`

  Main results:
    * `inpProcUpdate_of_behind`
    * `position_step`
    * `position_exact_iff`
    * `end_in_scratch_rejected`
-/

------------------------------------------------------------
-- The Input a Final Response Has Used
------------------------------------------------------------

namespace Zedc

open Bits

/- The bits of the scratch that are offered. -/
def InflReq.scratchBits (req : InflReq) : Nat :=
  8 * req.scratchLen - req.scratchIb

/- An honest response that has passed the final block. -/
structure HonestFinal (ex : InflExchange) : Prop where
  procBits : ex.resp.procBits.toNat < 8
  behind : ex.req.inHdrBits ≤ ex.resp.processed
  inside : ex.resp.processed ≤ ex.req.offered.length
  nonzero : ex.resp.processed ≠ 0
  outpReturned :
    ex.resp.outpReturned.toNat ≤ ex.req.outBuffLen
  passed : passedEob ex.resp.inflStat = true
  final : finalEob ex.resp.inflStat = true

/- No whole byte of the scratch is behind the final block. -/
def EndsBehindScratch (ex : InflExchange) : Prop :=
  ex.req.inHdrBits + ex.req.scratchBits <
    ex.resp.processed + 8

instance (ex : InflExchange) :
    Decidable (EndsBehindScratch ex) := by
  unfold EndsBehindScratch
  infer_instance

/- Up to the last partial byte the count is right. -/
theorem inpProcUpdate_of_behind
    {inp bits pre : Nat}
    (hBehind : pre < inp * 8 + bits + 8)
    (hInp : inp * 8 + bits + 8 ≤ 2 ^ 35) :
    inpProcUpdate inp bits pre =
      (inp * 8 + bits + 7 - pre) / 8 := by
  unfold inpProcUpdate
  simp only
  by_cases hLe : pre ≤ inp * 8 + bits
  · rw [wrapSub_of_le hLe (by omega)]
    omega
  · rw [wrapSub_of_lt (by omega) (by omega)]
    omega

/- A whole byte before the input, and the count wraps. -/
theorem inpProcUpdate_of_before
    {inp bits pre : Nat}
    (hBefore : inp * 8 + bits + 8 ≤ pre)
    (hPre : pre ≤ 2 ^ 12) :
    2 ^ 32 - 512 ≤ inpProcUpdate inp bits pre := by
  unfold inpProcUpdate
  simp only
  rw [wrapSub_of_lt (by omega) (by omega)]
  omega

/- The final block leaves only the input that was not used. -/
theorem postScratchUpd_final
    {t : InflStream}
    (hSome : t.asv.inpProcessed ≠ 0 ∨ t.asv.procBits ≠ 0)
    (hPassed : passedEob t.asv.inflStat = true)
    (hFinal : finalEob t.asv.inflStat = true) :
    ∃ s₂,
      postScratchUpd t = some (.ok, s₂) ∧
        s₂.inpDataOffs =
          inpProcUpdate t.asv.inpProcessed t.asv.procBits
            t.preScratchBits := by
  unfold postScratchUpd
  rw [if_pos hSome]
  unfold setupTree
  simp only
  rw [hPassed, hFinal, Bool.and_true, if_pos rfl]
  simp only
  refine ⟨_, rfl, ?_⟩
  rw [restoreStored_strm]
  simp only
  unfold setupTreeEob
  simp only
  rw [hPassed, if_pos rfl]
  split <;> rfl

------------------------------------------------------------
-- Where the Data Ends
------------------------------------------------------------

/-
  The byte behind the one that holds the last bit that was
  decompressed.
-/
def dataEnd
    (trace : List InflateEvent) (s : InflStream) : Nat :=
  s.prefx.idx + ((consumedBits trace).length + 7) / 8

/-
  Behind the final block, the bytes taken are those from the
  end of the data on, and all of the trailer once the end of
  the stream is reported.
-/
structure PositionExact
    (src : ByteMem)
    (trace : List InflateEvent)
    (s : InflStream) : Prop where
  next :
    finalEob s.asv.inflStat = true →
      s.totalIn = dataEnd trace s + s.postfx.idx ∧
        s.postfx.bytes.window 0 s.postfx.idx =
          src.window (dataEnd trace s) s.postfx.idx
  ended :
    Returned .streamEnd trace →
      s.totalIn = dataEnd trace s + trailerLen s.format

/- What holds of trace and stream in a run. -/
inductive PositionInv (src : ByteMem) :
    List InflateEvent → InflStream → Prop
  | blocks
      {trace : List InflateEvent} {s : InflStream} :
      Accounted src trace s →
      s.postfx.len = 0 →
      s.postfx.idx = 0 →
      ¬ Returned .streamEnd trace →
      PositionInv src trace s
  | trailer
      {trace : List InflateEvent} {s : InflStream} :
      AtTrailer src s.format (dataEnd trace s) s →
      (Returned .streamEnd trace →
        s.postfx.idx = trailerLen s.format) →
      PositionInv src trace s

theorem PositionInv.exact
    {src : ByteMem}
    {trace : List InflateEvent}
    {s : InflStream}
    (hInv : PositionInv src trace s) :
    PositionExact src trace s := by
  cases hInv with
  | blocks hAcc hLen hIdx hNoEnd =>
      refine ⟨fun hFinal => ?_,
        fun hSome => absurd hSome hNoEnd⟩
      rw [hAcc.data.inflStat] at hFinal
      cases hFinal
  | trailer hAt hEnd =>
      refine ⟨fun _ => ⟨hAt.totalIn, hAt.bytes⟩,
        fun hSome => ?_⟩
      rw [hAt.totalIn, hEnd hSome]

------------------------------------------------------------
-- The Final Response
------------------------------------------------------------

section Final

variable {src : ByteMem} {trace : List InflateEvent}
variable {s s' s₂ : InflStream} {ex : InflExchange}
variable {pages : Bool → ByteMem} {rc : Rc}

/- All bits taken, and those the response has decompressed. -/
theorem Accounted.length_consumed
    (hAcc : Accounted src trace s)
    (hReq : Requesting s)
    (hParts : RequestParts s ex)
    (hBehind : ex.req.inHdrBits ≤ ex.resp.processed)
    (hInside : ex.resp.processed ≤ ex.req.offered.length) :
    (consumedBits trace).length + ex.consumed.length +
        (ex.req.inHdrBits + ex.req.scratchBits) =
      8 * (s.totalIn - s.prefx.idx) + ex.resp.processed ∧
    ex.req.inHdrBits + ex.req.scratchBits =
      s.save.treeBits + s.save.scratchBits := by
  have hScratch : ex.req.scratchBits = s.save.scratchBits := by
    have hWhole := hReq.save.whole
    unfold InflReq.scratchBits
    rw [hParts.scratchLen, hParts.scratchIb]
    unfold SaveArea.scratchLen
    omega
  have hBits := congrArg List.length hAcc.bits
  rw [List.length_append, hReq.save.length_scratch,
    length_bitsOf, ByteMem.length_window] at hBits
  have hHeader : ex.req.header.length = ex.req.inHdrBits := by
    rw [hParts.header, SaveArea.length_header,
      hParts.inHdrBits]
  have hConsumed :
      ex.consumed.length =
        ex.resp.processed - ex.req.inHdrBits := by
    unfold InflReq.offered at hInside
    rw [List.length_append, hHeader] at hInside
    unfold InflExchange.consumed
    rw [List.length_take]
    omega
  have hTree := hParts.inHdrBits
  omega

/- The input a final response has used. -/
theorem HonestFinal.used
    (hReq : Requesting s)
    (hParts : RequestParts s ex)
    (hFinal : HonestFinal ex)
    (hUpdate :
      postScratchUpd (s.answered pages ex.resp) =
        some (rc, s₂)) :
    rc = .ok ∧
      (EndsBehindScratch ex →
        s₂.inpDataOffs =
            (ex.resp.processed + 7 -
              (ex.req.inHdrBits + ex.req.scratchBits)) / 8 ∧
          s₂.inpDataOffs ≤ s.availIn) ∧
      (¬ EndsBehindScratch ex →
        s.availIn < s₂.inpDataOffs) := by
  have hLen := hParts.length_offered hReq
  have hInside := hFinal.inside
  rw [hLen] at hInside
  have hSave := hReq.save.fits
  have hSmall := hReq.availIn
  have hOff := hReq.offered pages ex.resp
  have hScratch : ex.req.scratchBits = s.save.scratchBits := by
    have hWhole := hReq.save.whole
    unfold InflReq.scratchBits
    rw [hParts.scratchLen, hParts.scratchIb]
    unfold SaveArea.scratchLen
    omega
  have hPre :
      (s.answered pages ex.resp).preScratchBits =
        ex.req.inHdrBits + ex.req.scratchBits := by
    rw [hOff.preScratchBits, hParts.inHdrBits, hScratch]
    rfl
  have hProc :
      (s.answered pages ex.resp).asv.inpProcessed * 8 +
          (s.answered pages ex.resp).asv.procBits =
        ex.resp.processed :=
    processed_answered pages ex.resp s
  have hSome := hFinal.nonzero
  rcases postScratchUpd_final
      (t := s.answered pages ex.resp) (by omega)
      hFinal.passed hFinal.final with ⟨s₃, hUpd, hUsed⟩
  rw [hUpdate] at hUpd
  cases hUpd
  rw [hPre] at hUsed
  have hTree := hParts.inHdrBits
  unfold zedcTreeLen at hSave
  unfold zedcInflAvailInMax at hSmall
  refine ⟨rfl, fun hEnds => ?_, fun hNot => ?_⟩
  · unfold EndsBehindScratch at hEnds
    rw [inpProcUpdate_of_behind (by omega) (by omega),
      hProc] at hUsed
    omega
  · unfold EndsBehindScratch at hNot
    have hWrap :
        2 ^ 32 - 512 ≤
          inpProcUpdate
            (s.answered pages ex.resp).asv.inpProcessed
            (s.answered pages ex.resp).asv.procBits
            (ex.req.inHdrBits + ex.req.scratchBits) :=
      inpProcUpdate_of_before (by omega) (by omega)
    omega

/- The end of the data, with the final response. -/
theorem Accounted.dataEnd_final
    (hAcc : Accounted src trace s)
    (hReq : Requesting s)
    (hParts : RequestParts s ex)
    (hFinal : HonestFinal ex)
    {event : InflateEvent}
    (hEvent : event.exchange = some ex)
    (hPrefx : s'.prefx = s.prefx) :
    (EndsBehindScratch ex →
      dataEnd (trace ++ [event]) s' =
        s.totalIn +
          (ex.resp.processed + 7 -
            (ex.req.inHdrBits + ex.req.scratchBits)) / 8) ∧
    (¬ EndsBehindScratch ex →
      dataEnd (trace ++ [event]) s' < s.totalIn) := by
  have hLen :=
    (hAcc.length_consumed hReq hParts hFinal.behind
      hFinal.inside).1
  have hHeader := hAcc.header
  unfold dataEnd EndsBehindScratch
  rw [consumedBits_append, hEvent, hPrefx]
  simp only [List.length_append]
  omega

/- With the final response the trailer begins, or it fails. -/
theorem Accounted.final
    (hAcc : Accounted src trace s)
    (hLen : s.postfx.len = 0)
    (hIdx : s.postfx.idx = 0)
    (hNoEnd : ¬ Returned .streamEnd trace)
    (hFed : FedFrom src s)
    (hReq : Requesting s)
    (hParts : RequestParts s ex)
    (hFinal : HonestFinal ex)
    (hUpdate :
      postScratchUpd (s.answered pages ex.resp) =
        some (rc, s₂))
    {event : InflateEvent}
    (hEvent : event.exchange = some ex)
    (hCheck : inflateCheck ex rc s₂ = (event.rc, s')) :
    (EndsBehindScratch ex →
      PositionInv src (trace ++ [event]) s') ∧
    (¬ EndsBehindScratch ex →
      ¬ PositionExact src (trace ++ [event]) s') := by
  rcases hFinal.used hReq hParts hUpdate with
    ⟨rfl, hUsed, hWrap⟩
  have hChanged := (postScratchUpd_changes hUpdate).1
  have hStrm := hChanged.strm
  have hFormat₂ : s₂.format = s.format :=
    (congrArg InflStream.format hStrm :)
  have hPostfx₂ : s₂.postfx = s.postfx :=
    (congrArg InflStream.postfx hStrm :)
  have hPrefx₂ : s₂.prefx = s.prefx :=
    (congrArg InflStream.prefx hStrm :)
  have hNextIn₂ : s₂.nextIn = s.nextIn :=
    (congrArg InflStream.nextIn hStrm :)
  have hTotalIn₂ : s₂.totalIn = s.totalIn :=
    (congrArg InflStream.totalIn hStrm :)
  have hAvailOut₂ : s₂.availOut = s.availOut :=
    (congrArg InflStream.availOut hStrm :)
  have hFinal₂ : finalEob s₂.asv.inflStat = true := by
    rw [hChanged.inflStat]
    exact hFinal.final
  have hOut : ¬ s₂.asv.outpReturned > s₂.availOut := by
    have hLe := hFinal.outpReturned
    rw [hParts.outBuffLen] at hLe
    rw [hChanged.outpReturned, hAvailOut₂]
    exact Nat.not_lt.mpr hLe
  have hAvailIn₂ : s₂.availIn = s.availIn :=
    congrArg List.length hNextIn₂
  have hFed₂ : FedFrom src s₂ := by
    unfold FedFrom at hFed ⊢
    rw [hNextIn₂, hTotalIn₂]
    exact hFed
  unfold inflateCheck at hCheck
  rw [if_neg (by decide), if_neg hOut] at hCheck
  constructor
  · intro hEnds
    rcases hUsed hEnds with ⟨hOffs, hFew⟩
    rw [if_neg (by rw [hAvailIn₂]; omega),
      inflateFinish_final ex hFinal₂] at hCheck
    have hStart :
        AtTrailer src s.format (s₂.takenFinal ex).totalIn
          (s₂.takenFinal ex) := by
      refine AtTrailer.begin ?_ ?_ hFormat₂ hFinal₂
      · exact (congrArg Postfx.len hPostfx₂).trans hLen
      · exact (congrArg Postfx.idx hPostfx₂).trans hIdx
    rcases inflateTrailer_at hStart
        (hFed₂.advance s₂.inpDataOffs) hCheck with
      ⟨hAt, hPrefx, _, hEnd⟩
    have hPrefx' : s'.prefx = s.prefx := hPrefx.trans hPrefx₂
    have hWhere :
        (s₂.takenFinal ex).totalIn =
          dataEnd (trace ++ [event]) s' := by
      rw [(hAcc.dataEnd_final hReq hParts hFinal hEvent
        hPrefx').1 hEnds, ← hOffs, ← hTotalIn₂]
      rfl
    have hSame : s'.format = s.format := hAt.format
    rw [hWhere, ← hSame] at hAt
    refine .trailer hAt (fun hSome => ?_)
    rw [hSame]
    rcases returned_append.mp hSome with hBefore | hNow
    · exact absurd hBefore hNoEnd
    · exact hEnd hNow
  · intro hNot hExact
    rw [if_pos (by rw [hAvailIn₂]; exact hWrap hNot)]
      at hCheck
    have hStored : s' = inflateStore ex s₂ :=
      (congrArg Prod.snd hCheck).symm
    have hPrefx' : s'.prefx = s.prefx := by
      rw [hStored]
      exact hPrefx₂
    have hTotalIn' : s'.totalIn = s.totalIn := by
      rw [hStored]
      exact hTotalIn₂
    have hFinal' : finalEob s'.asv.inflStat = true := by
      rw [hStored]
      exact hFinal₂
    have hBefore :=
      (hAcc.dataEnd_final hReq hParts hFinal hEvent
        hPrefx').2 hNot
    have hIdx' : s'.postfx.idx = 0 := by
      rw [hStored]
      exact (congrArg Postfx.idx hPostfx₂).trans hIdx
    have hNext := (hExact.next hFinal').1
    omega

end Final

------------------------------------------------------------
-- Every Run
------------------------------------------------------------

section Runs

variable {src : ByteMem} {trace : List InflateEvent}
variable {s s' : InflStream} {event : InflateEvent}

/-
  Honest responses, of which the final one leaves no whole
  byte of the scratch behind the final block.
-/
def HonestPosition (event : InflateEvent) : Prop :=
  ∀ ex, event.exchange = some ex →
    HonestMore ex ∨ (HonestFinal ex ∧ EndsBehindScratch ex)

/- An exchange that is not made leaves the end of the data. -/
theorem dataEnd_none
    (hNone : event.exchange = none)
    (hPrefx : s'.prefx = s.prefx) :
    dataEnd (trace ++ [event]) s' = dataEnd trace s := by
  unfold dataEnd
  rw [consumedBits_append, hNone, List.append_nil, hPrefx]

theorem position_step
    (hInv : PositionInv src trace s)
    (hHonest : HonestPosition event)
    (hStep : inflateStep src s event s') :
    PositionInv src (trace ++ [event]) s' := by
  cases hInv with
  | blocks hAcc hLen hIdx hNoEnd =>
      rcases hAcc.call hStep with
        ⟨hNone, hRc, hAcc', hPostfx⟩ |
          ⟨s₁, s₂, ex, rc, pages, hSent⟩
      · refine .blocks
          (accounted_step hAcc (fun ex hEx => ?_) hStep)
          ?_ ?_ ?_
        · rw [hNone] at hEx
          cases hEx
        · rw [hPostfx, hLen]
        · rw [hPostfx, hIdx]
        · simp [returned_append, hNoEnd, hRc]
      · have hPostfx₁ := hSent.postfx
        rcases hHonest ex hSent.exchange with
          hMore | ⟨hFinal, hEnds⟩
        · have hDone :=
            hSent.accounted.done hSent.gone hSent.fed
              hSent.requesting hSent.parts hMore
              hSent.update
          have hCheck := hSent.check
          rw [hDone.2.2.1] at hCheck
          have hTaken : s' = s₂.taken ex :=
            (congrArg Prod.snd hCheck).symm
          have hRc : event.rc = .ok :=
            (congrArg Prod.fst hCheck).symm
          have hPostfx' : s'.postfx = s.postfx := by
            rw [hTaken, ← hPostfx₁]
            exact (congrArg InflStream.postfx
              hDone.2.1.strm :)
          refine .blocks ?_ ?_ ?_ ?_
          · rw [hTaken]
            exact hDone.2.2.2 event hSent.exchange
          · rw [hPostfx', hLen]
          · rw [hPostfx', hIdx]
          · simp [returned_append, hNoEnd, hRc]
        · exact (hSent.accounted.final
            (by rw [hPostfx₁, hLen]) (by rw [hPostfx₁, hIdx])
            hNoEnd hSent.fed hSent.requesting hSent.parts
            hFinal hSent.update hSent.exchange
            hSent.check).1 hEnds
  | trailer hAt hEnd =>
      rcases hAt.step hStep with
        ⟨hNone, hAt', hPrefx, hIdx, hEnd'⟩
      have hSame : s'.format = s.format := hAt'.format
      have hWhere : dataEnd (trace ++ [event]) s' = _ :=
        dataEnd_none hNone hPrefx
      rw [← hWhere, ← hSame] at hAt'
      refine .trailer hAt' (fun hSome => ?_)
      rw [hSame]
      rcases returned_append.mp hSome with hBefore | hNow
      · have hAll := hEnd hBefore
        have hOk := hAt'.ok
        have hLe := hOk.idx
        have hLen := hOk.len
        rw [hSame] at hLen
        omega
      · exact hEnd' hNow

theorem position_of_run
    {s₀ : InflStream}
    (hRun :
      Run (inflateStep src) (inflateInitState s₀) trace s)
    (hHonest : ∀ event ∈ trace, HonestPosition event) :
    PositionInv src trace s :=
  hRun.invariant_of_labels (PositionInv src) HonestPosition
    (.blocks (accounted_init src s₀) rfl rfl
      (by simp [Returned]))
    (fun _ _ _ _ hHonest hInv hStep =>
      position_step hInv hHonest hStep)
    hHonest

end Runs

/-
  In every run of honest responses the trailer is taken from
  where the data ends, as long as no whole byte of the scratch
  is behind the final block; and a final response keeps the
  position exactly under this condition.
-/
theorem position_exact_iff
    {src : ByteMem}
    {s₀ s : InflStream}
    {trace : List InflateEvent}
    (hRun :
      Run (inflateStep src) (inflateInitState s₀) trace s)
    (hHonest : ∀ event ∈ trace, HonestPosition event) :
    PositionExact src trace s ∧
    ∀ event s' ex,
      inflateStep src s event s' →
      event.exchange = some ex →
      HonestFinal ex →
      (PositionExact src (trace ++ [event]) s' ↔
        EndsBehindScratch ex) := by
  have hInv := position_of_run hRun hHonest
  refine ⟨hInv.exact, ?_⟩
  intro event s' ex hStep hEx hFinal
  cases hInv with
  | blocks hAcc hLen hIdx hNoEnd =>
      rcases hAcc.call hStep with
        ⟨hNone, _⟩ | ⟨s₁, s₂, ex', rc, pages, hSent⟩
      · rw [hNone] at hEx
        cases hEx
      · have hSame := hSent.exchange
        rw [hEx, Option.some.injEq] at hSame
        subst hSame
        have hPostfx₁ := hSent.postfx
        rcases hSent.accounted.final
            (by rw [hPostfx₁, hLen]) (by rw [hPostfx₁, hIdx])
            hNoEnd hSent.fed hSent.requesting hSent.parts
            hFinal hSent.update hSent.exchange
            hSent.check with ⟨hGood, hBad⟩
        refine ⟨fun hExact => ?_,
          fun hEnds => (hGood hEnds).exact⟩
        by_contra hNot
        exact hBad hNot hExact
  | trailer hAt hEnd =>
      rw [(hAt.step hStep).1] at hEx
      cases hEx

------------------------------------------------------------
-- An End inside the Scratch
------------------------------------------------------------

/- The final block is the first ten bits that were offered. -/
def endEarlyResp : InflResp :=
  { quietResp with
    inflStat := 0x05
    inpProcessed := 1
    procBits := 2 }

/- The final block ends with the ninth byte. -/
def endLateResp : InflResp :=
  { quietResp with inflStat := 0x05, inpProcessed := 9 }

/- An empty final block, and bytes behind it. -/
def endBlock : ByteMem := fun i => [0x03, 0x00].getD i 0xff

/- The stream with eight bytes in the scratch. -/
def waitingEnd : InflStream :=
  (waitCall.ret endBlock rawStream).strm

/- The trace of a byte more, with the end in it. -/
def endTrace (resp : InflResp) : List InflateEvent :=
  [] ++ [waitCall.event endBlock rawStream] ++
    [(moreCall resp).event endBlock waitingEnd]

theorem honest_waitEnd :
    ∀ event ∈ [] ++ [waitCall.event endBlock rawStream],
      HonestPosition event := by
  intro event hEvent ex hEx
  rw [List.nil_append, List.mem_singleton] at hEvent
  subst hEvent
  cases hEx
  left
  exact ⟨⟨by decide, by decide, by decide, by decide,
    by decide, by decide, by decide⟩,
    ⟨by decide, by decide, by decide⟩, by decide⟩

theorem run_waitEnd :
    Run (inflateStep endBlock) rawStream
      ([] ++ [waitCall.event endBlock rawStream])
      waitingEnd :=
  Run.next Run.start (inflateStep_ret (by decide))

theorem honestFinal_end
    {resp : InflResp}
    (hResp : resp = endEarlyResp ∨ resp = endLateResp) :
    ∃ ex,
      ((moreCall resp).event endBlock waitingEnd).exchange =
        some ex ∧ HonestFinal ex ∧
        (EndsBehindScratch ex ↔ resp = endLateResp) := by
  rcases hResp with rfl | rfl
  · refine ⟨_, rfl, ⟨by decide, by decide, by decide,
      by decide, by decide, by decide, by decide⟩, ?_⟩
    refine ⟨fun hEnds => absurd hEnds (by decide),
      fun hSame => ?_⟩
    have hInp := congrArg InflResp.inpProcessed hSame
    exact absurd hInp (by decide)
  · refine ⟨_, rfl, ⟨by decide, by decide, by decide,
      by decide, by decide, by decide, by decide⟩, ?_⟩
    exact ⟨fun _ => rfl, fun _ => by decide⟩

theorem end_in_scratch_rejected :
    Run (inflateStep endBlock) rawStream
        (endTrace endEarlyResp)
        ((moreCall endEarlyResp).ret endBlock
          waitingEnd).strm ∧
    (∃ ex,
      ((moreCall endEarlyResp).event endBlock
        waitingEnd).exchange = some ex ∧ HonestFinal ex) ∧
    ((moreCall endEarlyResp).event endBlock
      waitingEnd).rc = .streamError ∧
    ¬ PositionExact endBlock (endTrace endEarlyResp)
        ((moreCall endEarlyResp).ret endBlock
          waitingEnd).strm := by
  rcases honestFinal_end (Or.inl rfl) with ⟨ex, hEx, hFin, _⟩
  refine ⟨Run.next run_waitEnd (inflateStep_ret (by decide)),
    ⟨ex, hEx, hFin⟩, by decide, fun hExact => ?_⟩
  have hNext := (hExact.next (by decide)).1
  revert hNext
  decide

theorem position_exact_end :
    PositionExact endBlock (endTrace endLateResp)
        ((moreCall endLateResp).ret endBlock
          waitingEnd).strm ∧
    ((moreCall endLateResp).event endBlock
      waitingEnd).rc = .streamEnd := by
  rcases honestFinal_end (Or.inr rfl) with
    ⟨ex, hEx, hFin, hEnds⟩
  refine ⟨?_, by decide⟩
  exact ((position_exact_iff run_waitEnd honest_waitEnd).2
    _ _ ex (inflateStep_ret (by decide)) hEx hFin).mpr
    (hEnds.mpr rfl)

end Zedc
