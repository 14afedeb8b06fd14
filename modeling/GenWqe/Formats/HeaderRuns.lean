import GenWqe.Formats.HeaderScan
import GenWqe.Inflate.Behind

/-
  A header in `zedc_inflate` calls: as long as it is not
  done, a call comes to what the parser makes of the bytes
  that are offered, and then it stays as it is.

  Key definitions include:
    * `Untouched`
    * `HeaderCalled`

  Main results:
    * `Untouched.called`
    * `Untouched.goOn`
    * `prefx_of_done`
-/

namespace Zedc

open Words ByteMem

------------------------------------------------------------
-- Answers of the Parser
------------------------------------------------------------

theorem gzipHeaderLoop_codes
    {b : UInt8} {fuel : Nat} {p p' : Prefx}
    {state : HeadState} {rc : HdrRc}
    (hLoop :
      gzipHeaderLoop b fuel p state = some (rc, p')) :
    rc ≠ .zlibNeedDict := by
  induction fuel generalizing p state with
  | zero =>
      cases hLoop
      intro hSame
      cases hSame
  | succ fuel ih =>
      unfold gzipHeaderLoop at hLoop
      by_cases hDone : state = .headerDone
      · rw [if_pos hDone] at hLoop
        cases hLoop
        intro hSame
        cases hSame
      · rw [if_neg hDone] at hLoop
        cases hStep : gzipHeaderStep b p state with
        | none =>
            rw [hStep] at hLoop
            cases hLoop
        | some step =>
            rw [hStep] at hLoop
            cases step with
            | refuse p₁ =>
                cases hLoop
                intro hSame
                cases hSame
            | moreData p₁ next =>
                cases hLoop
                intro hSame
                cases hSame
            | goOn p₁ next => exact ih hLoop

/- No header of GZIP asks for a dictionary. -/
theorem gzipBytes_codes
    {l rest : List UInt8} {p p' : Prefx} {rc : HdrRc}
    (hBytes : gzipBytes l p = some (rc, p', rest)) :
    rc ≠ .zlibNeedDict := by
  induction l generalizing p with
  | nil =>
      cases hBytes
      exact nofun
  | cons b l ih =>
      rw [gzipBytes] at hBytes
      split at hBytes
      · cases hBytes
      · exact ih hBytes
      · rename_i rc' p₁ hRc hParse
        cases hBytes
        unfold inflateRemGzipHeader at hParse
        split at hParse
        · cases hParse
          exact nofun
        · exact gzipHeaderLoop_codes hParse

/- Each byte that is taken is counted. -/
theorem gzipBytes_idx
    {l rest : List UInt8} {p p' : Prefx} {rc : HdrRc}
    (hBytes : gzipBytes l p = some (rc, p', rest)) :
    p'.idx + rest.length = p.idx + l.length := by
  have hByte : ∀ {b : UInt8} {rc : HdrRc} {p p₁ : Prefx},
      inflateRemGzipHeader b (p.collect b) =
          some (rc, p₁) →
        p₁.next.idx = p.idx + 1 := by
    intro b rc p p₁ hParse
    exact congrArg (· + 1)
      ((inflateRemGzipHeader_keeps hParse).idx.trans
        (Prefx.collect_keeps b p).idx)
  induction l generalizing p with
  | nil =>
      cases hBytes
      rfl
  | cons b l ih =>
      rw [gzipBytes] at hBytes
      rw [List.length_cons]
      split at hBytes
      · cases hBytes
      · rename_i p₁ hParse
        have hIdx := hByte hParse
        have hRest := ih hBytes
        omega
      · rename_i rc' p₁ hRc hParse
        cases hBytes
        have hIdx := hByte hParse
        omega

------------------------------------------------------------
-- Before the Header Is Done
------------------------------------------------------------

/- Nothing behind a header was reached. -/
structure Untouched (s : InflStream) : Prop where
  format : s.format = .gzip
  data : InData s
  scratch : s.save.scratchBits = 0
  pending : s.dict.obytesInDict = 0
  idx : s.prefx.idx = s.totalIn
  unprepared : s.prefx.len = 0 → s.prefx.idx = 0

/-
  A call that is offered bytes of a header, and what the
  parser makes of them.
-/
inductive HeaderCalled
    (src : ByteMem)
    (s : InflStream)
    (event : InflateEvent)
    (s' : InflStream) : Prop
  | kept :
      event.call.availIn > zedcInflAvailInMax ∨
        event.call.availOut = 0 →
      event.rc ≠ .errGzipHdr →
      Untouched s' →
      s'.prefx = s.prefx →
      s'.totalIn = s.totalIn →
      HeaderCalled src s event s'
  | more :
      event.rc = .ok →
      gzipBytes (src.window s.totalIn event.call.availIn)
          s.prefx.prepared =
        some (.needMoreData, s'.prefx, []) →
      Untouched s' →
      s'.prefx.len ≠ 0 →
      s'.totalIn = s.totalIn + event.call.availIn →
      HeaderCalled src s event s'
  | error
      {rest : List UInt8} :
      event.rc = .errGzipHdr →
      gzipBytes (src.window s.totalIn event.call.availIn)
          s.prefx.prepared =
        some (.error, s'.prefx, rest) →
      Untouched s' →
      s'.prefx.len ≠ 0 →
      HeaderCalled src s event s'
  | done
      {rest : List UInt8} :
      event.rc ≠ .errGzipHdr →
      gzipBytes (src.window s.totalIn event.call.availIn)
          s.prefx.prepared =
        some (.ok, s'.prefx, rest) →
      HeaderCalled src s event s'

section Untouched

variable {src : ByteMem} {s s' : InflStream}
variable {event : InflateEvent}

theorem Prefx.prepared_of_len
    {p : Prefx}
    (hLen : p.len ≠ 0) :
    p.prepared = p := if_neg hLen

theorem Prefx.headerState_prepared (p : Prefx) :
    p.prepared.headerState = p.headerState := by
  unfold Prefx.prepared
  split <;> rfl

/- Pending output there is none, and nothing else changes. -/
theorem Untouched.giveOut
    (hUntouched : Untouched s)
    {n : Nat}
    (hLe : n ≤ s.dict.obytesInDict) :
    Untouched (s.giveOut n) ∧
      (s.giveOut n).prefx = s.prefx ∧
      (s.giveOut n).totalIn = s.totalIn ∧
      (s.giveOut n).nextIn = s.nextIn := by
  have hNone := hUntouched.pending
  have hN : n = 0 := by omega
  subst hN
  exact ⟨⟨hUntouched.format,
    ⟨hUntouched.data.eobSeen, hUntouched.data.inflStat⟩,
    hUntouched.scratch, hNone, hUntouched.idx,
    hUntouched.unprepared⟩, rfl, rfl, rfl⟩

theorem Untouched.offer
    (hUntouched : Untouched s)
    (src : ByteMem)
    (call : InflateCall) :
    Untouched (s.offer src call) :=
  ⟨hUntouched.format,
    ⟨hUntouched.data.eobSeen, hUntouched.data.inflStat⟩,
    hUntouched.scratch, hUntouched.pending, hUntouched.idx,
    hUntouched.unprepared⟩

/- The header is removed as far as it is there. -/
theorem Untouched.header
    {flush : Flush} {rc : Rc}
    (hUntouched : Untouched s)
    (hOpen : s.prefx.headerState ≠ .headerDone)
    (hHeader : HeaderDone flush s s' rc) :
    ∃ hdrRc rest,
      gzipBytes s.nextIn s.prefx.prepared =
          some (hdrRc, s'.prefx, rest) ∧
        rc = hdrRc.rc ∧ Untouched s' ∧
        s'.nextIn = rest ∧ s'.prefx.len ≠ 0 ∧
        s'.totalIn + rest.length =
          s.totalIn + s.nextIn.length := by
  unfold HeaderDone inflateHeader at hHeader
  rw [if_pos hOpen] at hHeader
  cases hBytes : gzipBytes s.nextIn s.prefx.prepared with
  | none =>
      rw [inflateFormatRemHeader_fault hUntouched.format flush
        hBytes] at hHeader
      cases hHeader
  | some out =>
      rcases out with ⟨hdrRc, q, rest⟩
      rcases inflateFormatRemHeader_gzip hUntouched.format
        flush hBytes with
        ⟨s₁, hCall, hPrefx, hNext, hFormat, hTotal⟩
      rcases inflateFormatRemHeader_spec
        hUntouched.unprepared hHeader with
        ⟨⟨k, -, hIdx, hMark, hStrm⟩, -⟩
      rw [hHeader] at hCall
      cases hCall
      have hLe := length_rest_le hBytes
      have hK : s'.totalIn = s.totalIn + k :=
        (congrArg InflStream.totalIn hStrm :)
      refine ⟨hdrRc, rest, by rw [hPrefx], rfl,
        ⟨hFormat, ⟨?_, ?_⟩, ?_, ?_, ?_, hMark⟩, hNext,
        ?_, ?_⟩
      · exact (congrArg InflStream.eobSeen hStrm).trans
          hUntouched.data.eobSeen
      · have hAsv : s'.asv = s.asv :=
          (congrArg InflStream.asv hStrm :)
        rw [hAsv]
        exact hUntouched.data.inflStat
      · have hSave : s'.save = s.save :=
          (congrArg InflStream.save hStrm :)
        rw [hSave]
        exact hUntouched.scratch
      · have hDict : s'.dict = s.dict :=
          (congrArg InflStream.dict hStrm :)
        rw [hDict]
        exact hUntouched.pending
      · rw [hIdx, hK, hUntouched.idx]
      · rw [hPrefx, gzipBytes_len hBytes]
        exact s.prefx.len_prepared
      · omega

/- The same behind a flush, for what a call offers. -/
theorem Untouched.offered
    {s₁ s₂ : InflStream} {n : Nat} {call : InflateCall}
    {rc : Rc}
    (hUntouched : Untouched s)
    (hOpen : s.prefx.headerState ≠ .headerDone)
    (hFlushed : Flushed (s.offer src call) s₁ n)
    (hHeader : HeaderDone call.flush s₁ s₂ rc) :
    ∃ hdrRc rest,
      gzipBytes (src.window s.totalIn call.availIn)
            s.prefx.prepared =
          some (hdrRc, s₂.prefx, rest) ∧
        rc = hdrRc.rc ∧ Untouched s₂ ∧
        s₂.nextIn = rest ∧ s₂.prefx.len ≠ 0 ∧
        s₂.totalIn + rest.length =
          s.totalIn + call.availIn := by
  have hOffer := hUntouched.offer src call
  rw [hFlushed.strm] at hHeader
  rcases hOffer.giveOut hFlushed.pending with
    ⟨hGiven, hPrefx, hTotal, hNext⟩
  rcases hGiven.header (by rw [hPrefx]; exact hOpen) hHeader
    with ⟨hdrRc, rest, hBytes, hRc, hAfter, hRest, hLen, hSum⟩
  rw [hNext, hPrefx] at hBytes
  rw [hNext, hTotal] at hSum
  refine ⟨hdrRc, rest, hBytes, hRc, hAfter, hRest, hLen, ?_⟩
  rw [hSum]
  simp [InflStream.offer]

/- Behind a header none is refused. -/
theorem rc_inflateTrailer (s : InflStream) :
    (inflateTrailer s).1 ≠ .errGzipHdr := by
  unfold inflateTrailer
  rcases inflateFormatRemTrailer s with ⟨_ | _ | rc, s₁⟩
  · simp only
    split <;> exact nofun
  · exact nofun
  · exact nofun

theorem rc_inflateSubmit
    {flush : Flush} {env : InflateEnv} {ret : InflRet}
    (hSubmit : inflateSubmit flush env s = some ret) :
    ret.rc ≠ .errGzipHdr := by
  cases inflateSubmit_outcome hSubmit with
  | needDict _ => exact nofun
  | failed _ => exact nofun
  | @done _ s₂ ex rc _ _ =>
      cases hCheck : inflateCheck ex rc s₂ with
      | mk rc' s' =>
          rcases inflateCheck_cases hCheck with
            ⟨hRc, -⟩ | ⟨hFinish, -⟩
          · change rc' ≠ _
            rw [hRc]
            exact nofun
          · have hFirst :
                (inflateFinish (inflateStore ex s₂)).1 =
                  rc' := congrArg Prod.fst hFinish
            change rc' ≠ _
            rw [← hFirst]
            unfold inflateFinish
            simp only
            split
            · exact rc_inflateTrailer _
            · exact nofun

/- As long as a header is not done, the parser decides. -/
theorem Untouched.called
    (hUntouched : Untouched s)
    (hOpen : s.prefx.headerState ≠ .headerDone)
    (hStep : inflateStep src s event s') :
    HeaderCalled src s event s' := by
  rcases event with ⟨call, callRc, exchange⟩
  have hOffer := hUntouched.offer src call
  have hPrepared :
      s.prefx.prepared.headerState ≠ .headerDone := by
    rw [Prefx.headerState_prepared]
    exact hOpen
  unfold inflateStep zedcInflate at hStep
  cases hPrepare :
      inflatePrepare call.flush (s.offer src call) with
  | none =>
      rw [hPrepare] at hStep
      cases hStep
  | some result =>
      rw [hPrepare] at hStep
      cases inflatePrepare_outcome hPrepare with
      | tooLarge hLarge =>
          cases hStep
          refine .kept (Or.inl ?_) (fun h => by cases h) hOffer rfl rfl
          simpa [InflStream.availIn, InflStream.offer]
            using hLarge
      | overrun _ hOver =>
          rw [hOffer.pending] at hOver
          omega
      | trailer _ hFlushed hEob =>
          rw [hFlushed.strm] at hEob
          rw [eobSeen_of_inData
            (hOffer.giveOut hFlushed.pending).1.data] at hEob
          cases hEob
      | full _ hFlushed _ hFull =>
          cases hStep
          rw [hFlushed.strm] at hFull ⊢
          rcases hOffer.giveOut hFlushed.pending with
            ⟨hGiven, hPrefx, hTotal, -⟩
          refine .kept (Or.inr ?_) (fun h => by cases h)
            hGiven hPrefx hTotal
          have hNone := hOffer.pending
          have hLe := hFlushed.pending
          change call.availOut - _ = 0 at hFull
          change call.availOut = 0
          omega
      | header _ hFlushed _ _ hDone hRc =>
          cases hStep
          rcases hUntouched.offered hOpen hFlushed hDone with
            ⟨hdrRc, rest, hBytes, hIs, hAfter, -, hLen, -⟩
          cases hdrRc with
          | ok => exact (hRc hIs).elim
          | needMoreData => exact (hRc hIs).elim
          | zlibNeedDict =>
              exact (gzipBytes_codes hBytes rfl).elim
          | error => exact .error hIs hBytes hAfter hLen
      | block _ hFlushed _ _ hDone _ =>
          cases hStep
          rcases hUntouched.offered hOpen hFlushed hDone with
            ⟨hdrRc, rest, hBytes, hIs, hAfter, -, hLen, hSum⟩
          cases hdrRc with
          | ok => exact .done (fun h => by cases h) hBytes
          | needMoreData =>
              cases (gzipBytes_more hPrepared hBytes).2
              exact .more rfl hBytes hAfter hLen hSum
          | zlibNeedDict => cases hIs
          | error => cases hIs
      | noInput _ hFlushed _ _ hDone _ _ _ =>
          cases hStep
          rcases hUntouched.offered hOpen hFlushed hDone with
            ⟨hdrRc, rest, hBytes, hIs, hAfter, -, hLen, hSum⟩
          have hOk : ∀ t, Untouched t →
              inflateChkRet t = .ok := by
            intro t hT
            unfold inflateChkRet
            rw [hT.data.inflStat]
            simp
          cases hdrRc with
          | ok =>
              refine .done ?_ hBytes
              change inflateChkRet _ ≠ _
              rw [hOk _ hAfter]
              intro hSame
              cases hSame
          | needMoreData =>
              cases (gzipBytes_more hPrepared hBytes).2
              exact .more (hOk _ hAfter) hBytes hAfter hLen
                hSum
          | zlibNeedDict => cases hIs
          | error => cases hIs
      | ready _ hFlushed _ _ hDone _ hSome =>
          rcases hUntouched.offered hOpen hFlushed hDone with
            ⟨hdrRc, rest, hBytes, hIs, hAfter, hRest, -, -⟩
          cases hdrRc with
          | ok =>
              have hSame := prefx_inflateSubmit hStep
              rw [← hSame] at hBytes
              exact .done (rc_inflateSubmit hStep) hBytes
          | needMoreData =>
              have hNil := (gzipBytes_more hPrepared hBytes).2
              refine (hSome ⟨?_, hAfter.scratch⟩).elim
              unfold InflStream.availIn
              rw [hRest, hNil]
              rfl
          | zlibNeedDict => cases hIs
          | error => cases hIs

/- Only the header can fault before a DDCB. -/
theorem inflatePrepare_fault
    {flush : Flush}
    (hFault : inflatePrepare flush s = none) :
    ∃ s₁ n, Flushed s s₁ n ∧
      inflateHeader flush s₁ = none := by
  unfold inflatePrepare at hFault
  split at hFault
  · cases hFault
  · rcases inflateFlushOutputBuffer_spec s with
      ⟨s₁, n, hOut, hFlushed⟩ | ⟨hOut, -⟩
    · rw [hOut] at hFault
      refine ⟨s₁, n, hFlushed, ?_⟩
      simp only [ne_eq, not_true_eq_false, if_false] at hFault
      unfold inflateEntry at hFault
      split at hFault
      · cases hFault
      · rename_i hEob
        have hSame : inflateEobSeen s₁ = s₁ := by
          unfold inflateEobSeen at hEob ⊢
          split
          · rename_i hStat
            rw [if_pos hStat] at hEob
            exact (hEob rfl).elim
          · rfl
        rw [hSame] at hFault
        split at hFault
        · cases hFault
        · unfold inflatePrefix at hFault
          cases hHeader : inflateHeader flush s₁ with
          | none => rfl
          | some out =>
              rcases out with ⟨rc, s₂⟩
              rw [hHeader] at hFault
              simp only at hFault
              split_ifs at hFault
    · rw [hOut] at hFault
      cases hFault

/- Where the parser does not fault, no call faults in it. -/
theorem Untouched.prepares
    {call : InflateCall}
    (hUntouched : Untouched s)
    (hOpen : s.prefx.headerState ≠ .headerDone)
    (hSome :
      gzipBytes (src.window s.totalIn call.availIn)
        s.prefx.prepared ≠ none) :
    inflatePrepare call.flush (s.offer src call) ≠ none := by
  intro hFault
  rcases inflatePrepare_fault hFault with
    ⟨s₁, n, hFlushed, hHeader⟩
  have hOffer := hUntouched.offer src call
  rw [hFlushed.strm] at hHeader
  rcases hOffer.giveOut hFlushed.pending with
    ⟨hGiven, hPrefx, -, hNext⟩
  have hOpenOffer :
      (s.offer src call).prefx.headerState ≠ .headerDone :=
    hOpen
  unfold inflateHeader at hHeader
  rw [hPrefx, if_pos hOpenOffer] at hHeader
  cases hBytes : gzipBytes (src.window s.totalIn call.availIn)
      s.prefx.prepared with
  | none => exact hSome hBytes
  | some out =>
      rcases out with ⟨hdrRc, q, rest⟩
      rcases inflateFormatRemHeader_gzip hGiven.format
        call.flush (by rw [hNext, hPrefx]; exact hBytes) with
        ⟨s₂, hCall, -⟩
      rw [hCall] at hHeader
      cases hHeader

/- A call that is offered a part of a header returns. -/
theorem Untouched.goOn
    {call : InflateCall} {q : Prefx}
    (hUntouched : Untouched s)
    (hOpen : s.prefx.headerState ≠ .headerDone)
    (hMore :
      gzipBytes (src.window s.totalIn call.availIn)
        s.prefx.prepared = some (.needMoreData, q, [])) :
    ∃ event s',
      event.call = call ∧ inflateStep src s event s' := by
  have hPrepares := hUntouched.prepares hOpen (by
    rw [hMore]
    exact nofun)
  unfold inflateStep zedcInflate
  cases hPrepare :
      inflatePrepare call.flush (s.offer src call) with
  | none => exact (hPrepares hPrepare).elim
  | some result =>
      rcases result with ⟨rc, s'⟩ | s₂
      · refine ⟨⟨call, rc, none⟩, s', rfl, ?_⟩
        rw [hPrepare]
      · cases inflatePrepare_outcome hPrepare with
        | ready _ hFlushed _ _ hDone _ hSome =>
            rcases hUntouched.offered hOpen hFlushed hDone
              with ⟨hdrRc, rest, hBytes, -, hAfter, hRest, -⟩
            rw [hMore] at hBytes
            cases hBytes
            refine (hSome ⟨?_, hAfter.scratch⟩).elim
            unfold InflStream.availIn
            rw [hRest]
            rfl

end Untouched

/- A header that is done stays as it is. -/
theorem prefx_of_done
    {src : ByteMem} {s s' : InflStream}
    {event : InflateEvent}
    (hDone : s.prefx.headerState = .headerDone)
    (hStep : inflateStep src s event s') :
    s'.prefx = s.prefx ∧ event.rc ≠ .errGzipHdr := by
  rcases event with ⟨call, callRc, exchange⟩
  have hHeader : ∀ {n s₁ s₂ rc},
      Flushed (s.offer src call) s₁ n →
        HeaderDone call.flush s₁ s₂ rc →
          rc = .ok ∧ s₂.prefx = s.prefx := by
    intro n s₁ s₂ rc hFlushed hIs
    rw [hFlushed.strm] at hIs
    unfold HeaderDone inflateHeader at hIs
    rw [if_neg (fun h => h hDone)] at hIs
    cases hIs
    exact ⟨rfl, rfl⟩
  unfold inflateStep zedcInflate at hStep
  cases hPrepare :
      inflatePrepare call.flush (s.offer src call) with
  | none =>
      rw [hPrepare] at hStep
      cases hStep
  | some result =>
      rw [hPrepare] at hStep
      cases inflatePrepare_outcome hPrepare with
      | tooLarge _ =>
          cases hStep
          exact ⟨rfl, nofun⟩
      | overrun _ _ =>
          cases hStep
          exact ⟨rfl, nofun⟩
      | @trailer s₁ n _ hFlushed _ =>
          cases hStep
          refine ⟨(prefx_inflateTrailer _).trans ?_,
            rc_inflateTrailer _⟩
          rw [hFlushed.strm]
          unfold inflateEobSeen
          split <;> rfl
      | full _ hFlushed _ _ =>
          cases hStep
          rw [hFlushed.strm]
          exact ⟨rfl, nofun⟩
      | header _ hFlushed _ _ hIs hRc =>
          exact (hRc (hHeader hFlushed hIs).1).elim
      | block _ hFlushed _ _ hIs _ =>
          cases hStep
          exact ⟨(hHeader hFlushed hIs).2, nofun⟩
      | noInput _ hFlushed _ _ hIs _ _ _ =>
          cases hStep
          refine ⟨(hHeader hFlushed hIs).2, ?_⟩
          change inflateChkRet _ ≠ _
          unfold inflateChkRet
          split <;> exact nofun
      | ready _ hFlushed _ _ hIs _ _ =>
          exact ⟨(prefx_inflateSubmit hStep).trans
            (hHeader hFlushed hIs).2, rc_inflateSubmit hStep⟩

end Zedc
