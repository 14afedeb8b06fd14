import GenWqe.Inflate.Decompress
import GenWqe.Lib.Runs

/-
  Runs of `zedc_inflate` calls on one stream that offer its
  bytes piece by piece, and what one call changes.

  Key definitions include:
    * `InflateCall` and `InflateEvent`
    * `inflateStep`
    * `Idle`, `Tried` and `FedFrom`

  Main results:
    * `inflatePrepare_idle`
    * `inflateSubmit_tried`
    * `inflateCheck_cases`
-/

------------------------------------------------------------
-- Runs of Calls
------------------------------------------------------------

namespace Zedc

/-
  What the caller chooses for a call: how many bytes of the
  stream to offer, the output space and the flush value.
-/
structure InflateCall where
  availIn : Nat
  availOut : Nat
  flush : Flush
  env : InflateEnv

/- A call, what it returned, and the exchange it made. -/
structure InflateEvent where
  call : InflateCall
  rc : Rc
  exchange : Option InflExchange

/- The next bytes of `src` and space for output are offered. -/
def InflStream.offer
    (src : ByteMem)
    (call : InflateCall)
    (s : InflStream) : InflStream :=
  { s with
    nextIn := src.window s.totalIn call.availIn
    availOut := call.availOut }

/-
  A call of `zedc_inflate`. A fault ends a run: there is no
  step for it.
-/
def inflateStep
    (src : ByteMem)
    (s : InflStream)
    (event : InflateEvent)
    (s' : InflStream) : Prop :=
  zedcInflate event.call.flush event.call.env
      (s.offer src event.call) =
    some ⟨event.rc, s', event.exchange⟩

/- What a call returns, where it is no fault. -/
def InflateCall.ret
    (src : ByteMem)
    (call : InflateCall)
    (s : InflStream) : InflRet :=
  (zedcInflate call.flush call.env (s.offer src call)).getD
    ⟨.errno, s, none⟩

/- The event of a call. -/
def InflateCall.event
    (src : ByteMem)
    (call : InflateCall)
    (s : InflStream) : InflateEvent :=
  ⟨call, (call.ret src s).rc, (call.ret src s).exchange⟩

theorem inflateStep_ret
    {src : ByteMem}
    {call : InflateCall}
    {s : InflStream}
    (hSome :
      (zedcInflate call.flush call.env
        (s.offer src call)).isSome) :
    inflateStep src s (call.event src s)
      (call.ret src s).strm := by
  rcases Option.isSome_iff_exists.mp hSome with ⟨ret, hRet⟩
  unfold inflateStep InflateCall.event InflateCall.ret
  simp only
  rw [hRet]
  rfl

/- The latest exchange the results of which were taken. -/
def lastExchange
    (trace : List InflateEvent) : Option InflExchange :=
  (trace.filterMap InflateEvent.exchange).getLast?

theorem lastExchange_append
    (trace : List InflateEvent)
    (event : InflateEvent) :
    lastExchange (trace ++ [event]) =
      event.exchange.or (lastExchange trace) := by
  unfold lastExchange
  rw [List.filterMap_append]
  cases hExchange : event.exchange with
  | none => simp [hExchange]
  | some ex => simp [hExchange]

/- The input offered is that of the stream `src`. -/
def FedFrom (src : ByteMem) (s : InflStream) : Prop :=
  s.nextIn = src.window s.totalIn s.nextIn.length

theorem fedFrom_offer
    (src : ByteMem)
    (call : InflateCall)
    (s : InflStream) :
    FedFrom src (s.offer src call) := by
  simp [FedFrom, InflStream.offer]

theorem FedFrom.advance
    {src : ByteMem}
    {s : InflStream}
    (hFed : FedFrom src s)
    (n : Nat) :
    FedFrom src (s.advance n) := by
  unfold FedFrom InflStream.advance
  simp only
  rw [List.length_drop, ← ByteMem.drop_window, ← hFed]

theorem FedFrom.take
    {src : ByteMem}
    {s : InflStream}
    {n : Nat}
    (hFed : FedFrom src s)
    (hLe : n ≤ s.nextIn.length) :
    s.nextIn.take n = src.window s.totalIn n := by
  rw [hFed, ByteMem.take_window, Nat.min_eq_left hLe]

------------------------------------------------------------
-- Before a DDCB
------------------------------------------------------------

/- The marks of a header that is being removed. -/
structure HeaderMark (s : InflStream) : Prop where
  unprepared : s.prefx.len = 0 → s.prefx.idx = 0
  state : ZlibState s

/- There is no header, or it was removed. -/
def HeaderGone (s : InflStream) : Prop :=
  s.format = .defl ∨ s.prefx.headerState = .headerDone

theorem HeaderMark.congr
    {s s' : InflStream}
    (hMark : HeaderMark s)
    (hFormat : s'.format = s.format)
    (hPrefx : s'.prefx = s.prefx) : HeaderMark s' := by
  refine ⟨?_, ?_⟩
  · rw [hPrefx]
    exact hMark.unprepared
  · unfold ZlibState
    rw [hFormat, hPrefx]
    exact hMark.state

/-
  `k` bytes of header were removed and pending output was
  given out; what belongs to the data is untouched.
-/
structure Idle (s s' : InflStream) (k : Nat) : Prop where
  le : k ≤ s.nextIn.length
  idx : s'.prefx.idx = s.prefx.idx + k
  mark : HeaderMark s'
  gone : HeaderGone s → k = 0 ∧ HeaderGone s'
  strm :
    s' =
      { s.advance k with
        nextOut := s'.nextOut
        availOut := s'.availOut
        totalOut := s'.totalOut
        dict := s'.dict
        prefx := s'.prefx
        dictAdler32 := s'.dictAdler32
        adler32 := s'.adler32
        havedict := s'.havedict
        dataType80 := s'.dataType80
        inpDataOffs := 0 }

theorem Flushed.idle
    {s s₁ : InflStream}
    {n : Nat}
    (hFlushed : Flushed s s₁ n)
    (hMark : HeaderMark s) :
    Idle s s₁ 0 := by
  rw [hFlushed.strm]
  exact ⟨Nat.zero_le _, rfl, hMark.congr rfl rfl,
    fun hGone => ⟨rfl, hGone⟩,
    by simp [InflStream.advance, InflStream.giveOut]⟩

/- Removing a header is all that happens behind a flush. -/
theorem Idle.header
    {flush : Flush}
    {s s₁ s₂ : InflStream}
    {rc : Rc}
    (hIdle : Idle s s₁ 0)
    (hHeader : HeaderDone flush s₁ s₂ rc) :
    (∃ k, Idle s s₂ k) ∧
      (rc = .ok ∨ rc = .errGzipHdr ∨ rc = .needDict) ∧
      (rc = .ok → HeaderGone s₂ ∨ s₂.nextIn = []) := by
  unfold HeaderDone inflateHeader at hHeader
  have hFormat₁ : s₁.format = s.format :=
    (congrArg InflStream.format hIdle.strm :)
  split at hHeader
  · rename_i hNotDone
    rcases inflateFormatRemHeader_spec hIdle.mark.unprepared
      hHeader with ⟨⟨k, hLe, hIdx, hMark, hStrm⟩, hRc⟩
    rcases inflateFormatRemHeader_state hIdle.mark.state
      hHeader with ⟨hState, hOk, hDefl⟩
    have hFormat₂ : s₂.format = s₁.format :=
      (congrArg InflStream.format hStrm :)
    have hNextIn : s₁.nextIn = s.nextIn := by
      rw [hIdle.strm]
      simp [InflStream.advance]
    rw [hNextIn] at hLe
    refine ⟨⟨k, hLe, ?_, ⟨hMark, hState⟩, ?_, ?_⟩, hRc, ?_⟩
    · rw [hIdx, hIdle.idx, Nat.add_zero]
    · intro hGone
      have hGone₁ := (hIdle.gone hGone).2
      rcases hGone₁ with hIs | hDone
      · have hSame := hDefl hIs
        subst hSame
        exact ⟨by omega, Or.inl hIs⟩
      · exact absurd hDone hNotDone
    · rw [hStrm, hIdle.strm]
      simp [InflStream.advance]
    · intro hRc
      rcases hOk hRc with hIs | hDone | hNone
      · exact Or.inl (Or.inl (hFormat₂.trans hIs))
      · exact Or.inl (Or.inr hDone)
      · exact Or.inr hNone
  · rename_i hDone
    cases hHeader
    exact ⟨⟨0, hIdle⟩, Or.inl rfl,
      fun _ => Or.inl (Or.inr (Decidable.not_not.mp hDone))⟩

theorem FedFrom.of_idle
    {src : ByteMem}
    {s s₁ : InflStream}
    {k : Nat}
    (hFed : FedFrom src s)
    (hIdle : Idle s s₁ k) :
    FedFrom src s₁ := by
  rw [hIdle.strm]
  exact hFed.advance k

/- What a call may answer without a DDCB. -/
inductive Prepared (flush : Flush) (s : InflStream) :
    Sum (Rc × InflStream) InflStream → Prop
  | refused
      {s₁ : InflStream} {rc : Rc} :
      s₁ = { s with inpDataOffs := s₁.inpDataOffs } →
      rc = .memError ∨ rc = .streamError →
      Prepared flush s (.inl (rc, s₁))
  | idle
      {s₁ : InflStream} {k : Nat} {rc : Rc} :
      Idle s s₁ k →
      InData s →
      rc = .ok ∨ rc = .errGzipHdr ∨ rc = .needDict →
      Prepared flush s (.inl (rc, s₁))
  | trailer
      {s₁ : InflStream} {n : Nat} {rc : Rc} :
      Flushed s (s.giveOut n) n →
      ¬ InData s →
      inflateTrailer (inflateEobSeen (s.giveOut n)) =
        (rc, s₁) →
      Prepared flush s (.inl (rc, s₁))
  | ready
      {s₁ : InflStream} {k : Nat} :
      Idle s s₁ k →
      InData s →
      s.availIn ≤ zedcInflAvailInMax →
      ¬ (s₁.availIn = 0 ∧ s₁.save.scratchBits = 0) →
      HeaderGone s₁ ∨ s₁.nextIn = [] →
      Prepared flush s (.inr s₁)

theorem eobSeen_of_inData
    {s : InflStream}
    (hData : InData s) :
    (inflateEobSeen s).eobSeen = false := by
  unfold inflateEobSeen
  rw [hData.inflStat]
  exact hData.eobSeen

theorem Flushed.inData
    {s s₁ : InflStream}
    {n : Nat}
    (hFlushed : Flushed s s₁ n)
    (hData : InData s₁) : InData s := by
  rw [hFlushed.strm] at hData
  exact ⟨hData.eobSeen, hData.inflStat⟩

theorem inflatePrepare_idle
    {flush : Flush}
    {s : InflStream}
    {result : Sum (Rc × InflStream) InflStream}
    (hMark : InData s → HeaderMark s)
    (hPrepare : inflatePrepare flush s = some result) :
    Prepared flush s result := by
  cases inflatePrepare_outcome hPrepare with
  | tooLarge hLarge => exact .refused rfl (Or.inl rfl)
  | overrun hSmall hOver => exact .refused rfl (Or.inr rfl)
  | trailer hSmall hFlushed hEob =>
      rename_i s₁ n
      cases hFlushed.strm
      refine .trailer hFlushed (fun hData => ?_) rfl
      have hData₁ : InData (s.giveOut n) :=
        ⟨hData.eobSeen, hData.inflStat⟩
      rw [eobSeen_of_inData hData₁] at hEob
      cases hEob
  | full hSmall hFlushed hData hFull =>
      have hIn := hFlushed.inData hData
      exact .idle (hFlushed.idle (hMark hIn)) hIn (Or.inl rfl)
  | header hSmall hFlushed hData hSpace hHeader hRc =>
      have hIn := hFlushed.inData hData
      rcases (hFlushed.idle (hMark hIn)).header hHeader with
        ⟨⟨k, hIdle⟩, hWhich, _⟩
      exact .idle hIdle hIn hWhich
  | block hSmall hFlushed hData hSpace hHeader hBlock =>
      have hIn := hFlushed.inData hData
      rcases (hFlushed.idle (hMark hIn)).header hHeader with
        ⟨⟨k, hIdle⟩, _⟩
      exact .idle hIdle hIn (Or.inl rfl)
  | noInput hSmall hFlushed hData hSpace hHeader hBlock
      hNone hScratch =>
      rename_i s₁ s₂ n
      have hIn := hFlushed.inData hData
      rcases (hFlushed.idle (hMark hIn)).header hHeader with
        ⟨⟨k, hIdle⟩, _⟩
      have hAsv : s₂.asv = s.asv :=
        (congrArg InflStream.asv hIdle.strm :)
      have hRet : inflateChkRet s₂ = .ok := by
        unfold inflateChkRet
        rw [hAsv, hIn.inflStat]
        simp
      rw [hRet]
      exact .idle hIdle hIn (Or.inl rfl)
  | ready hSmall hFlushed hData hSpace hHeader hBlock
      hSome =>
      have hIn := hFlushed.inData hData
      rcases (hFlushed.idle (hMark hIn)).header hHeader with
        ⟨⟨k, hIdle⟩, _, hGone⟩
      exact .ready hIdle hIn hSmall hSome (hGone rfl)

------------------------------------------------------------
-- The DDCB
------------------------------------------------------------

/- A DDCB was tried, and its results were not taken. -/
structure Tried (s s' : InflStream) : Prop where
  strm :
    s' =
      { s with
        inHdrScratchLen := s'.inHdrScratchLen
        preScratchBits := s'.preScratchBits
        inHdrBits := s'.inHdrBits
        dict := s'.dict
        adler32 := s'.adler32 }

theorem inflateExecute_tried
    {flush : Flush}
    {env : InflateEnv}
    {s s₁ : InflStream}
    {exec : InflExec}
    (hExec : inflateExecute flush env s = (exec, s₁)) :
    ∃ pages, s₁ = (setInflateAsiv s).withPages pages := by
  rcases inflateExecute_strm flush env s with ⟨pages, hStrm⟩
  rw [hExec] at hStrm
  exact ⟨pages, hStrm⟩

/- What a DDCB comes to, step by step. -/
inductive Submitted
    (flush : Flush) (env : InflateEnv) (s : InflStream) :
    InflRet → Prop
  | tried
      {s' : InflStream} {rc : Rc} :
      Tried s s' →
      rc = .needDict ∨ rc = .streamError →
      Submitted flush env s ⟨rc, s', none⟩
  | done
      {s₂ : InflStream}
      {ex : InflExchange}
      {rc : Rc}
      {pages : Bool → ByteMem} :
      postScratchUpd
        (getInflateAsv ex.resp
          ((setInflateAsiv s).withPages pages)) =
        some (rc, s₂) →
      (∃ saveDict outDictLen,
        ex.req =
          { inflateRequest s with
            saveDict := saveDict
            outDictLen := outDictLen }) →
      Submitted flush env s
        ⟨(inflateCheck ex rc s₂).1,
          (inflateCheck ex rc s₂).2, some ex⟩

theorem inflateSubmit_tried
    {flush : Flush}
    {env : InflateEnv}
    {s : InflStream}
    {ret : InflRet}
    (hSubmit : inflateSubmit flush env s = some ret) :
    Submitted flush env s ret := by
  cases inflateSubmit_outcome hSubmit with
  | needDict hExec =>
      rcases inflateExecute_tried hExec with ⟨pages, rfl⟩
      exact .tried ⟨rfl⟩ (Or.inl rfl)
  | failed hExec =>
      rcases inflateExecute_tried hExec with ⟨pages, rfl⟩
      exact .tried ⟨rfl⟩ (Or.inr rfl)
  | done hExec hUpdate =>
      rcases inflateExecute_tried hExec with ⟨pages, rfl⟩
      exact .done hUpdate (inflateExecute_done hExec).1

/- The results are rejected, or the input is advanced. -/
theorem inflateCheck_cases
    {ex : InflExchange}
    {rc rc' : Rc}
    {s s' : InflStream}
    (hCheck : inflateCheck ex rc s = (rc', s')) :
    (rc' = .streamError ∧
      s' =
        { s with
          nextOut := s'.nextOut
          availOut := s'.availOut
          totalOut := s'.totalOut }) ∨
    (inflateFinish (inflateStore ex s) = (rc', s') ∧
      ¬ rc.IsNegative ∧
      s.asv.outpReturned ≤ s.availOut ∧
      s.inpDataOffs ≤ s.availIn) := by
  unfold inflateCheck at hCheck
  split at hCheck
  · cases hCheck
    exact Or.inl ⟨rfl, rfl⟩
  · rename_i hRc
    split at hCheck
    · cases hCheck
      exact Or.inl ⟨rfl, rfl⟩
    · rename_i hOut
      split at hCheck
      · cases hCheck
        exact Or.inl ⟨rfl, rfl⟩
      · rename_i hOffs
        exact Or.inr ⟨hCheck, hRc, Nat.not_lt.mp hOut,
          Nat.not_lt.mp hOffs⟩

/- The output is stored and the input used is passed. -/
def InflStream.taken
    (ex : InflExchange) (s : InflStream) : InflStream :=
  (inflateStore ex s).advance s.inpDataOffs

/- The same behind the final block. -/
def InflStream.takenFinal
    (ex : InflExchange) (s : InflStream) : InflStream :=
  { s.taken ex with eobSeen := true }

theorem inflateFinish_final
    (ex : InflExchange)
    {s : InflStream}
    (hFinal : finalEob s.asv.inflStat = true) :
    inflateFinish (inflateStore ex s) =
      inflateTrailer (s.takenFinal ex) := by
  have hStat : finalEob (s.taken ex).asv.inflStat = true :=
    hFinal
  have hSeen :
      inflateEobSeen (s.taken ex) = s.takenFinal ex :=
    if_pos hStat
  have hOffs :
      (inflateStore ex s).advance
          (inflateStore ex s).inpDataOffs = s.taken ex := rfl
  unfold inflateFinish
  rw [hOffs, hSeen]
  rfl

theorem inflateFinish_more
    (ex : InflExchange)
    {s : InflStream}
    (hData : InData s) :
    inflateFinish (inflateStore ex s) = (.ok, s.taken ex) := by
  have hTaken : InData (s.taken ex) :=
    ⟨hData.eobSeen, hData.inflStat⟩
  have hSeen : inflateEobSeen (s.taken ex) = s.taken ex := by
    unfold inflateEobSeen
    rw [hTaken.inflStat]
    rfl
  have hOffs :
      (inflateStore ex s).advance
          (inflateStore ex s).inpDataOffs = s.taken ex := rfl
  unfold inflateFinish
  rw [hOffs, hSeen]
  simp only
  rw [hTaken.eobSeen]
  rfl

------------------------------------------------------------
-- A Whole Call
------------------------------------------------------------

/- A call answers before the DDCB or with what it comes to. -/
inductive Called
    (flush : Flush) (env : InflateEnv) (s : InflStream) :
    InflRet → Prop
  | prepared
      {rc : Rc} {s' : InflStream} :
      Prepared flush s (.inl (rc, s')) →
      Called flush env s ⟨rc, s', none⟩
  | submitted
      {s₁ : InflStream} {k : Nat} {ret : InflRet} :
      Idle s s₁ k →
      InData s →
      s.availIn ≤ zedcInflAvailInMax →
      ¬ (s₁.availIn = 0 ∧ s₁.save.scratchBits = 0) →
      HeaderGone s₁ ∨ s₁.nextIn = [] →
      Submitted flush env s₁ ret →
      Called flush env s ret

theorem zedcInflate_called
    {flush : Flush}
    {env : InflateEnv}
    {s : InflStream}
    {ret : InflRet}
    (hMark : InData s → HeaderMark s)
    (hCall : zedcInflate flush env s = some ret) :
    Called flush env s ret := by
  unfold zedcInflate at hCall
  cases hPrepare : inflatePrepare flush s with
  | none =>
      rw [hPrepare] at hCall
      cases hCall
  | some result =>
      have hPrepared := inflatePrepare_idle hMark hPrepare
      rw [hPrepare] at hCall
      rcases result with ⟨rc, s₁⟩ | s₁
      · cases hCall
        exact .prepared hPrepared
      · cases hPrepared with
        | ready hIdle hData hSmall hSome hGone =>
            exact .submitted hIdle hData hSmall hSome hGone
              (inflateSubmit_tried hCall)

end Zedc
