import GenWqe.Hardware.InflateEnds
import GenWqe.Session.Inflate

/-
  Which errors of `zedc_inflate` a call of `h_inflate` hands
  on to its caller.

  Key definitions include:
    * `headerAnswer`, `HeaderRefused`
    * `HeaderFirst`
    * `CallMade`, `ErrorsReported`
    * `Swallowed`

  Main results:
    * `zedcInflate_refuses`, `zedcInflate_unreported`
    * `hInflateResult_negative_iff`
    * `errorsReported_call_iff`
-/

------------------------------------------------------------
-- The Answer of the Header Parser
------------------------------------------------------------

namespace Session

open Zedc Hardware

/- The parser of a format, on one byte. -/
def headerByte
    (format : Format) (b : UInt8) (p : Prefx) :
    Option (HdrRc × Prefx) :=
  if format = .gzip then inflateRemGzipHeader b p
  else
    some ((inflateRemZlibHeader p).rc,
      (inflateRemZlibHeader p).prefx)

/- Its answer to bytes, up to the first that is one. -/
def headerAnswer (format : Format) :
    List UInt8 → Prefx → Option HdrRc
  | [], _ => some .needMoreData
  | b :: rest, p =>
      match headerByte format b (p.collect b) with
      | none => none
      | some (.needMoreData, p₁) =>
          headerAnswer format rest
            { p₁ with idx := p₁.idx + 1 }
      | some (rc, _) => some rc

/- The code that stands for an answer. -/
def answerCode : HdrRc → Rc
  | .ok => .ok
  | .needMoreData => .ok
  | .zlibNeedDict => .needDict
  | .error => .errGzipHdr

/- The header is not done yet, and one of its bytes is bad. -/
structure HeaderRefused (s : InflStream) : Prop where
  format : s.format ≠ .defl
  headerState : s.prefx.headerState ≠ .headerDone
  answer :
    headerAnswer s.format s.nextIn
      (remHeaderPrepare s).prefx = some .error

theorem headerRefused_congr
    {s s' : InflStream}
    (hFormat : s'.format = s.format)
    (hPrefx : s'.prefx = s.prefx)
    (hInput : s'.nextIn = s.nextIn) :
    HeaderRefused s' ↔ HeaderRefused s := by
  have hPrepared :
      ∀ {t t' : InflStream},
        t'.format = t.format → t'.prefx = t.prefx →
        t'.nextIn = t.nextIn →
          HeaderRefused t → HeaderRefused t' := by
    intro t t' hFormat hPrefx hInput hRefused
    have hSame :
        (remHeaderPrepare t').prefx =
          (remHeaderPrepare t).prefx := by
      unfold remHeaderPrepare
      rw [hPrefx, hFormat]
      split <;> rfl
    refine ⟨hFormat ▸ hRefused.format,
      hPrefx ▸ hRefused.headerState, ?_⟩
    rw [hFormat, hInput, hSame]
    exact hRefused.answer
  exact ⟨hPrepared hFormat.symm hPrefx.symm hInput.symm,
    hPrepared hFormat hPrefx hInput⟩

theorem inflateRemHeaderByte_answer
    (b : UInt8) (s : InflStream) :
    (inflateRemHeaderByte b s).map
        (Prod.map id InflStream.prefx) =
      headerByte s.format b (s.prefx.collect b) := by
  unfold inflateRemHeaderByte headerByte
  simp only
  split
  · cases inflateRemGzipHeader b (s.prefx.collect b) <;> rfl
  · cases (inflateRemZlibHeader (s.prefx.collect b)).dictid
      <;> rfl

/- The loop returns the code of that answer. -/
theorem remHeaderLoop_answer
    (bs : List UInt8) (s : InflStream) :
    (remHeaderLoop bs s).map Prod.fst =
      (headerAnswer s.format bs s.prefx).map answerCode := by
  induction bs generalizing s with
  | nil => rfl
  | cons b rest ih =>
      have hByte := inflateRemHeaderByte_answer b s
      unfold remHeaderLoop headerAnswer
      rw [← hByte]
      cases hResult : inflateRemHeaderByte b s with
      | none => rfl
      | some result =>
          rcases result with ⟨rc, s₁⟩
          have hTaken := inflateRemHeaderByte_keeps hResult
          have hFormat : s₁.format = s.format :=
            (congrArg InflStream.format hTaken.strm :)
          cases rc with
          | ok | zlibNeedDict | error => rfl
          | needMoreData =>
              have hNext := ih s₁.passHeaderByte
              have hSame :
                  s₁.passHeaderByte.format = s.format :=
                hFormat
              rw [hSame] at hNext
              exact hNext

/- A header is refused just where its parser refuses it. -/
theorem inflateHeader_refused_iff
    (flush : Flush) (s : InflStream) :
    (∃ s', HeaderDone flush s s' .errGzipHdr) ↔
      HeaderRefused s := by
  have hSame :
      (remHeaderPrepare s).format = s.format := by
    unfold remHeaderPrepare
    split <;> rfl
  have hAnswer :=
    remHeaderLoop_answer s.nextIn (remHeaderPrepare s)
  rw [hSame] at hAnswer
  have hCode :
      ∀ {rc : HdrRc}, answerCode rc = .errGzipHdr ↔
        rc = .error := by
    intro rc
    cases rc <;> simp [answerCode]
  unfold HeaderDone inflateHeader inflateFormatRemHeader
  constructor
  · rintro ⟨s', hHeader⟩
    split at hHeader
    swap
    · cases hHeader
    rename_i hOpen
    split at hHeader
    · cases hHeader
    rename_i hFormat
    refine ⟨hFormat, hOpen, ?_⟩
    simp only at hHeader
    cases hLoop :
        remHeaderLoop s.nextIn (remHeaderPrepare s) with
    | none =>
        rw [hLoop] at hHeader
        cases hHeader
    | some result =>
        rcases result with ⟨rc, s₁⟩
        have hRc : rc = .errGzipHdr := by
          rw [hLoop] at hHeader
          simp only at hHeader
          split at hHeader <;> cases hHeader <;> rfl
        rw [hLoop, hRc, Option.map_some] at hAnswer
        rcases Option.map_eq_some_iff.mp hAnswer.symm with
          ⟨answer, hIs, hErr⟩
        rw [hIs, hCode.mp hErr]
  · rintro ⟨hFormat, hOpen, hIs⟩
    rw [hIs, Option.map_some] at hAnswer
    rcases Option.map_eq_some_iff.mp hAnswer with
      ⟨⟨rc, s₁⟩, hLoop, hRc⟩
    have hRc : rc = .errGzipHdr := hRc
    subst hRc
    refine ⟨s₁, ?_⟩
    rw [if_pos hOpen, if_neg hFormat]
    simp only
    rw [hLoop]
    simp only
    rw [if_neg (by simp)]

------------------------------------------------------------
-- While the Header Is Not Done
------------------------------------------------------------

/-
  Up to the end of the header nothing was decompressed, and
  no input waits in the scratch.
-/
structure HeaderFirst (s : InflStream) : Prop where
  mark : HeaderMark s
  first : HeaderGone s ∨ Quiet s ∧ s.save.scratchBits = 0

section HeaderFirst

variable {flush : Flush} {env : InflateEnv}
variable {s s₁ s₂ : InflStream} {n : Nat} {rc : Rc}
variable {ret : InflRet}

theorem HeaderGone.kept
    (hKept : HeaderKept s s₁)
    (hGone : HeaderGone s) : HeaderGone s₁ := by
  unfold HeaderGone at hGone ⊢
  rw [hKept.format, hKept.prefx]
  exact hGone

/- The header is removed, or it waits for more of its bytes. -/
structure Removed (s s₂ : InflStream) (rc : Rc) : Prop where
  next : HeaderFirst s₂
  gone : HeaderGone s → HeaderGone s₂
  done : rc = .ok → HeaderGone s₂ ∨ s₂.nextIn = []

theorem HeaderFirst.removed
    (hFirst : HeaderFirst s)
    (hFlushed : Flushed s s₁ n)
    (hHeader : HeaderDone flush s₁ s₂ rc) :
    Removed s s₂ rc := by
  rcases (hFlushed.idle hFirst.mark).header hHeader with
    ⟨⟨k, hIdle⟩, -, hDone⟩
  refine ⟨⟨hIdle.mark, ?_⟩, fun hGone => (hIdle.gone hGone).2,
    hDone⟩
  rcases hFirst.first with hGone | ⟨hQuiet, hNone⟩
  · exact Or.inl (hIdle.gone hGone).2
  · right
    have hDict : s₂.dict.obytesInDict = 0 := by
      rw [(inflateHeader_side hHeader).1,
        Flushed.drained hFlushed hQuiet.drained]
      exact hQuiet.drained
    have hSave : s₂.save = s.save :=
      (congrArg InflStream.save hIdle.strm :)
    have hEob : s₂.eobSeen = s.eobSeen :=
      (congrArg InflStream.eobSeen hIdle.strm :)
    have hAsv : s₂.asv = s.asv :=
      (congrArg InflStream.asv hIdle.strm :)
    refine ⟨⟨⟨?_, ?_⟩, hDict⟩, ?_⟩
    · rw [hEob]
      exact hQuiet.data.eobSeen
    · rw [hAsv]
      exact hQuiet.data.inflStat
    · rw [hSave]
      exact hNone

/- Only behind the header there is a DDCB. -/
theorem Removed.submits
    (hRemoved : Removed s s₂ .ok)
    (hSome :
      ¬ (s₂.availIn = 0 ∧ s₂.save.scratchBits = 0)) :
    HeaderGone s₂ := by
  rcases hRemoved.next.first with hGone | ⟨-, hNone⟩
  · exact hGone
  · rcases hRemoved.done rfl with hGone | hInput
    · exact hGone
    · refine absurd ⟨?_, hNone⟩ hSome
      unfold InflStream.availIn
      rw [hInput]
      rfl

theorem zedcInflate_headerFirst
    (hFirst : HeaderFirst s)
    (hCall : zedcInflate flush env s = some ret) :
    HeaderFirst ret.strm ∧
      (HeaderGone s → HeaderGone ret.strm) := by
  cases zedcInflate_header hCall with
  | kept hKept _ hStays =>
      refine ⟨⟨hFirst.mark.congr hKept.format hKept.prefx, ?_⟩,
        fun hGone => HeaderGone.kept hKept hGone⟩
      rcases hFirst.first with hGone | ⟨hQuiet, hNone⟩
      · exact Or.inl (HeaderGone.kept hKept hGone)
      · right
        refine ⟨(hStays hQuiet).quiet, ?_⟩
        rw [(hStays hQuiet).save]
        exact hNone
  | returned _ hFlushed _ _ hHeader _ =>
      have hRemoved := hFirst.removed hFlushed hHeader
      exact ⟨hRemoved.next, hRemoved.gone⟩
  | submitted _ hFlushed _ _ hHeader hKept _ hSome =>
      have hRemoved := hFirst.removed hFlushed hHeader
      have hGone := HeaderGone.kept hKept
        (hRemoved.submits hSome)
      exact ⟨⟨hRemoved.next.mark.congr hKept.format
        hKept.prefx, Or.inl hGone⟩, fun _ => hGone⟩

/- What belongs to the header decides about it. -/
theorem HeaderFirst.congr
    (hFirst : HeaderFirst s)
    (hFormat : s₁.format = s.format)
    (hLen : s₁.prefx.len = s.prefx.len)
    (hIdx : s₁.prefx.idx = s.prefx.idx)
    (hState : s₁.prefx.headerState = s.prefx.headerState)
    (hEob : s₁.eobSeen = s.eobSeen)
    (hAsv : s₁.asv = s.asv)
    (hDict : s₁.dict.obytesInDict = s.dict.obytesInDict)
    (hScratch :
      s.save.scratchBits = 0 → s₁.save.scratchBits = 0) :
    HeaderFirst s₁ := by
  refine ⟨⟨?_, ?_⟩, ?_⟩
  · rw [hLen, hIdx]
    exact hFirst.mark.unprepared
  · have hZlib := hFirst.mark.state
    unfold ZlibState at hZlib ⊢
    rw [hFormat, hState]
    exact hZlib
  · rcases hFirst.first with hGone | ⟨hQuiet, hNone⟩
    · left
      unfold HeaderGone at hGone ⊢
      rw [hFormat, hState]
      exact hGone
    · refine Or.inr ⟨⟨⟨?_, ?_⟩, ?_⟩, hScratch hNone⟩
      · rw [hEob]
        exact hQuiet.data.eobSeen
      · rw [hAsv]
        exact hQuiet.data.inflStat
      · rw [hDict]
        exact hQuiet.drained

/- So it is in every reachable state. -/
theorem headerFirst_of_reachable
    {disabled : Bool}
    {cfg : InflateConfig}
    {st : HInflate}
    (hReach : Reachable disabled cfg st) :
    HeaderFirst st.s.h := by
  have hRule : StreamRule HeaderFirst := by
    refine ⟨?_, ?_, ?_, ?_⟩
    · intro h _ _ _ _ hFirst
      exact hFirst.congr rfl rfl rfl rfl rfl rfl rfl id
    · intro flush env h ret hFirst hCall
      exact (zedcInflate_headerFirst hFirst hCall).1
    · intro len h bs h' hFirst hRead
      unfold zedcReadPendingOutput at hRead
      split at hRead
      · cases hRead
        exact hFirst
      · rename_i hPending
        split at hRead
        · cases hRead
        · cases hRead
          refine ⟨hFirst.mark.congr rfl rfl, ?_⟩
          rcases hFirst.first with hGone | ⟨hQuiet, -⟩
          · exact Or.inl hGone
          · exact absurd hQuiet.drained hPending
    · intro h hFirst
      exact hFirst.congr rfl rfl rfl rfl rfl rfl rfl
        fun _ => rfl
  refine hRule.reachable ?_ ?_ ?_ hReach
  · intro h format
    refine ⟨⟨fun _ => rfl, fun _ => rfl⟩,
      Or.inr ⟨?_, rfl⟩⟩
    exact ⟨⟨rfl, (quiet_initState h).data.inflStat⟩, rfl⟩
  · intro dictionary h hFirst
    unfold zedcInflateSetDictionary
    split
    · exact hFirst
    · split
      · exact hFirst
      · exact hFirst.congr rfl rfl rfl rfl rfl rfl rfl id
  · intro head h hFirst
    exact hFirst.congr rfl rfl rfl rfl rfl rfl rfl id

end HeaderFirst

------------------------------------------------------------
-- Errors of a Call
------------------------------------------------------------

section Errors

variable {flush : Flush} {env : InflateEnv}
variable {s s' : InflStream} {ret : InflRet}

/- A header that is refused is not the end of a block. -/
theorem block_of_refused
    (hHeader : HeaderDone flush s s' .errGzipHdr) :
    s'.dataType80 = false := by
  unfold HeaderDone inflateHeader inflateFormatRemHeader
    at hHeader
  have hPrepared :
      (remHeaderPrepare s).nextIn = s.nextIn ∧
        (remHeaderPrepare s).dataType80 = false := by
    unfold remHeaderPrepare
    split <;> exact ⟨rfl, rfl⟩
  split at hHeader
  swap
  · cases hHeader
  split at hHeader
  · cases hHeader
  simp only at hHeader
  cases hLoop :
      remHeaderLoop s.nextIn (remHeaderPrepare s) with
  | none =>
      rw [hLoop] at hHeader
      cases hHeader
  | some result =>
      rcases result with ⟨rc, s₁⟩
      rcases (remHeaderLoop_spec hPrepared.1 hLoop).1 with
        ⟨k, hTaken⟩
      have hBlock : s₁.dataType80 = false :=
        (congrArg InflStream.dataType80 hTaken.strm :).trans
          hPrepared.2
      rw [hLoop] at hHeader
      simp only at hHeader
      split at hHeader
      · rename_i hOk
        cases hHeader
        simp at hOk
      · cases hHeader
        exact hBlock

/- A bad byte of a header is answered with an error. -/
theorem zedcInflate_refuses
    (hFirst : HeaderFirst s)
    (hSmall : s.availIn ≤ zedcInflAvailInMax)
    (hSpace : s.availOut ≠ 0)
    (hRefused : HeaderRefused s)
    (flush : Flush)
    (env : InflateEnv) :
    ∃ s',
      zedcInflate flush env s =
          some ⟨.errGzipHdr, s', none⟩ ∧
        s'.dataType80 = false ∧
        s'.availOut = s.availOut ∧
        s'.nextOut = s.nextOut := by
  have hOpen : ¬ HeaderGone s := by
    rintro (hDefl | hDone)
    · exact hRefused.format hDefl
    · exact hRefused.headerState hDone
  rcases hFirst.first with hGone | ⟨hQuiet, -⟩
  · exact absurd hGone hOpen
  have hDrained := hQuiet.drained
  have hPrepare := @inflatePrepare_open flush _ hQuiet.data
    (by omega) hSmall (by omega)
  rw [giveOut_drained hDrained] at hPrepare
  have hSame :
      HeaderRefused { s with inpDataOffs := 0 } :=
    (@headerRefused_congr s { s with inpDataOffs := 0 } rfl
      rfl rfl).mpr hRefused
  rcases (inflateHeader_refused_iff flush _).mpr hSame with
    ⟨s', hHeader⟩
  rcases (inflateHeader_passed hHeader).1 with ⟨k, hPassed⟩
  refine ⟨s', ?_, block_of_refused hHeader, ?_, ?_⟩
  · unfold HeaderDone at hHeader
    unfold zedcInflate
    rw [hPrepare]
    unfold inflatePrefix
    rw [hHeader]
    simp
  · rw [hPassed.strm]
    rfl
  · rw [hPassed.strm]
    rfl

theorem ok_not_isNegative : ¬ Rc.ok.IsNegative := by
  decide

/- The trailer is answered with a code that is reported. -/
theorem inflateTrailer_reported
    (hNegative : (inflateTrailer s).1.IsNegative) :
    Reported (inflateTrailer s).1 := by
  rcases (inflateTrailer_passed s).2 with hOk | hErr | hEnd
  · rw [hOk] at hNegative
    exact absurd hNegative (by decide)
  · exact Or.inr (Or.inr (Or.inl hErr))
  · rw [hEnd.1] at hNegative
    exact absurd hNegative (by decide)

/- So is a DDCB. -/
theorem inflateSubmit_reported
    (hSubmit : inflateSubmit flush env s = some ret)
    (hNegative : ret.rc.IsNegative) :
    Reported ret.rc := by
  cases inflateSubmit_tried hSubmit with
  | tried _ hRc =>
      rcases hRc with rfl | rfl
      · exact Or.inl rfl
      · exact Or.inr (Or.inl rfl)
  | @done s₂ ex rc pages _ _ =>
      generalize hCheck : inflateCheck ex rc s₂ = result
        at hNegative ⊢
      rcases result with ⟨rc', s'⟩
      rcases inflateCheck_cases hCheck with
        ⟨rfl, -⟩ | ⟨hFinish, -⟩
      · exact Or.inr (Or.inl rfl)
      · unfold inflateFinish at hFinish
        simp only at hFinish
        split at hFinish
        · have hRc := congrArg Prod.fst hFinish
          change (inflateTrailer _).1 = rc' at hRc
          subst hRc
          exact inflateTrailer_reported hNegative
        · cases hFinish
          exact absurd hNegative ok_not_isNegative

/-
  The errors that are not: too much input, and a header that
  is refused.
-/
inductive Unreported (s : InflStream) : InflRet → Prop
  | tooLarge :
      zedcInflAvailInMax < s.availIn →
      Unreported s ⟨.memError, s, none⟩
  | header
      {s' : InflStream} :
      s.availIn ≤ zedcInflAvailInMax →
      s.availOut ≠ 0 →
      HeaderRefused s →
      Unreported s ⟨.errGzipHdr, s', none⟩

theorem Unreported.rc
    (hError : Unreported s ret) :
    ret.rc.IsNegative ∧ ¬ Reported ret.rc := by
  have hMem :
      Rc.memError.IsNegative ∧ ¬ Reported .memError := by
    decide
  have hHdr :
      Rc.errGzipHdr.IsNegative ∧ ¬ Reported .errGzipHdr := by
    decide
  cases hError with
  | tooLarge _ => exact hMem
  | header _ _ _ => exact hHdr

theorem zedcInflate_unreported
    (hCall : zedcInflate flush env s = some ret)
    (hNegative : ret.rc.IsNegative)
    (hNot : ¬ Reported ret.rc) :
    Unreported s ret := by
  unfold zedcInflate at hCall
  cases hPrepare : inflatePrepare flush s with
  | none =>
      rw [hPrepare] at hCall
      cases hCall
  | some result =>
      have hOutcome := inflatePrepare_outcome hPrepare
      rw [hPrepare] at hCall
      cases hOutcome with
      | tooLarge hLarge =>
          cases hCall
          exact .tooLarge hLarge
      | overrun _ _ =>
          cases hCall
          exact absurd (Or.inr (Or.inl rfl)) hNot
      | @trailer s₁ n _ _ _ =>
          cases hCall
          exact absurd (inflateTrailer_reported hNegative) hNot
      | full _ _ _ _ =>
          cases hCall
          exact absurd hNegative ok_not_isNegative
      | @header s₁ s₂ n rc hSmall hFlushed _ hSpace hHeader
          hRc =>
          cases hCall
          rcases (inflateHeader_passed hHeader).2 with
            rfl | rfl | rfl
          · exact absurd rfl hRc
          · have hRefused :=
              (inflateHeader_refused_iff flush s₁).mp
                ⟨s₂, hHeader⟩
            rw [hFlushed.strm] at hRefused hSpace
            refine .header hSmall ?_
              ((@headerRefused_congr s (s.giveOut n) rfl rfl
                rfl).mp hRefused)
            intro hNone
            exact hSpace (by simp [InflStream.giveOut, hNone])
          · exact absurd (Or.inl rfl) hNot
      | block _ _ _ _ _ _ =>
          cases hCall
          exact absurd hNegative ok_not_isNegative
      | @noInput s₁ s₂ n _ _ _ _ _ _ _ _ =>
          cases hCall
          unfold inflateChkRet at hNegative
          split at hNegative
          · exact absurd hNegative
              ((Rc.not_isNegative_iff _).mpr
                (Or.inr (Or.inl rfl)))
          · exact absurd hNegative ok_not_isNegative
      | ready _ _ _ _ _ _ _ =>
          exact absurd
            (inflateSubmit_reported hCall hNegative) hNot

end Errors

------------------------------------------------------------
-- The Calls That Are Made
------------------------------------------------------------

/-
  A call of `zedc_inflate` that is made in a call of
  `h_inflate`: what it returns, and what comes of the round in
  which it is made.
-/
inductive CallMade
    (disabled : Bool)
    (flush : Flush)
    (env : Nat → InflateEnv)
    (st : HInflate) :
    InflRet → Option (Sum (Rc × HInflate) HInflate) → Prop
  | direct
      {ret : InflRet} :
      st.s.obuf.total = 0 →
      zedcInflate flush (env 0) (hInflateOffer false st) =
        some ret →
      CallMade disabled flush env st ret
        ((hInflateDirect flush (env 0) st).map Sum.inl)
  | loop
      {n : Nat} {st₁ st₂ : HInflate} {ret : InflRet} :
      st.s.obuf.total ≠ 0 →
      ¬ AllGiven st →
      LoopReaches
        (hInflateRounds disabled (useInternalBuffer st) flush
          env)
        st n st₁ →
      hInflateStart flush st₁ = .inr st₂ →
      zedcInflate flush (env n)
          (hInflateOffer (useInternalBuffer st) st₂) =
        some ret →
      CallMade disabled flush env st ret
        (hInflateRound disabled (useInternalBuffer st) flush
          (env n) st₁)

/-
  Every negative code of a call of `zedc_inflate` ends the
  call of `h_inflate` with a negative code.
-/
def ErrorsReported
    (disabled : Bool)
    (flush : Flush)
    (env : Nat → InflateEnv)
    (st : HInflate) : Prop :=
  ∀ ret result,
    CallMade disabled flush env st ret result →
      ret.rc.IsNegative →
        ∃ rc st',
          result = some (.inl (rc, st')) ∧ rc.IsNegative

/- The loop makes a call in its first round. -/
structure CallsFirst (flush : Flush) (st : HInflate) :
    Prop where
  buffered : st.s.obuf.total ≠ 0
  running : st.s.rc ≠ .streamEnd
  given : st.s.obuf.bytes ≤ st.strm.availOut
  room :
    st.s.obuf.bytes = st.strm.availOut →
      st.s.h.dict.obytesInDict = 0
  asked : ¬ waitsForInput flush st

/-
  What goes wrong in that call: too much input, but for the
  end of a block that is looked at with space left, or a bad
  byte of a header, where there is space.
-/
inductive Swallowed (st : HInflate) : Prop
  | tooLarge :
      zedcInflAvailInMax < st.strm.nextIn.length →
      ¬ (st.s.h.dataType80 = true ∧
        st.s.obuf.bytes < st.strm.availOut) →
      Swallowed st
  | header :
      st.strm.nextIn.length ≤ zedcInflAvailInMax →
      useInternalBuffer st = true ∨
        st.s.obuf.bytes < st.strm.availOut →
      HeaderRefused
        { st.s.h with nextIn := st.strm.nextIn } →
      Swallowed st

section Rounds

variable {disabled internal : Bool} {flush : Flush}
variable {env : InflateEnv} {st st₁ st₂ : HInflate}

/- A reported code ends the round. -/
theorem hInflateResult_reported
    (disabled : Bool)
    (hReported : Reported st.s.rc) :
    hInflateResult disabled st =
      some (.inl (st.s.rc, hInflateFlushObuf st)) := by
  unfold hInflateResult
  exact if_pos hReported

/- Another negative code does only at the end of a block. -/
theorem hInflateResult_negative_iff
    (disabled : Bool)
    (hNext : st.strm.nextOut = st.strm.out.length)
    (hEmpty : st.s.obuf.waiting = [])
    (hNegative : st.s.rc.IsNegative)
    (hNot : ¬ Reported st.s.rc) :
    (∃ rc st',
      hInflateResult disabled st =
          some (.inl (rc, st')) ∧ rc.IsNegative) ↔
      st.strm.dataType80 = true ∧ st.strm.availOut ≠ 0 := by
  rcases hInflateFlushObuf_spec hNext with ⟨k, hFlushed⟩
  have hZero : k = 0 := by
    have hLe := hFlushed.waiting
    rw [hEmpty] at hLe
    exact Nat.le_zero.mp hLe
  subst hZero
  have hOk := ok_not_isNegative
  have hEnd : ¬ Rc.streamEnd.IsNegative := by decide
  have hRunning : st.s.rc ≠ .streamEnd := by
    intro hIs
    rw [hIs] at hNegative
    exact hEnd hNegative
  unfold hInflateResult
  generalize hInflateFlushObuf st = st₁ at hFlushed ⊢
  have hSame :
      st₁.s.rc = st.s.rc ∧
        st₁.strm.availOut = st.strm.availOut ∧
        st₁.strm.dataType80 = st.strm.dataType80 := by
    rw [hFlushed.strm]
    exact ⟨rfl, rfl, rfl⟩
  rcases hSame with ⟨hRc, hOut, hBlock⟩
  simp only
  rw [hRc, if_neg hNot, ← hOut, ← hBlock]
  by_cases hFull : st₁.strm.availOut = 0
  · -- without space the round ends with no error
    constructor
    · rintro ⟨rc, st', hResult, hIs⟩
      rcases Option.map_eq_some_iff.mp hResult with
        ⟨st₂, hCheck, hRound⟩
      have hStill : st₂.strm.availOut = 0 := by
        by_contra hSome
        have hSame := hInflateCheckEnd_space hCheck hSome
        rw [hSame] at hSome
        exact hSome hFull
      unfold hInflateRoundEnd at hRound
      split at hRound
      · cases hRound
        exact absurd hIs hEnd
      · cases hRound
        exact absurd hIs hOk
    · rintro ⟨-, hSome⟩
      exact absurd hFull hSome
  · have hCheck :
        hInflateCheckEnd disabled st₁ = some st₁ :=
      if_neg fun hBoth => hFull hBoth.2
    rw [hCheck, Option.map_some]
    unfold hInflateRoundEnd
    rw [if_neg fun hBoth => hRunning (hRc ▸ hBoth.1),
      if_neg hFull]
    constructor
    · rintro ⟨rc, st', hResult, hIs⟩
      refine ⟨?_, hFull⟩
      by_contra hMore
      rw [if_neg hMore] at hResult
      split at hResult
      · cases hResult
        exact hOk hIs
      · cases hResult
    · rintro ⟨hIs, -⟩
      rw [if_pos hIs]
      exact ⟨_, _, rfl, hRc ▸ hNegative⟩

/- The state on which a round makes its call. -/
structure CalledOn (st st₂ : HInflate) : Prop where
  flushed : ∃ k, FlushedObuf st st₂ k
  ready : RoundReady st₂
  h : st₂.s.h = st.s.h
  total : st₂.s.obuf.total = st.s.obuf.total
  waiting : st₂.s.obuf.waiting = []
  nextIn : st₂.strm.nextIn = st.strm.nextIn
  availOut :
    st₂.strm.availOut =
      st.strm.availOut - st.s.obuf.bytes

theorem flushedObuf_unique
    {j k : Nat}
    (hFlushed : FlushedObuf st st₁ j)
    (hOther : FlushedObuf st st₂ k) : st₁ = st₂ := by
  have hSame : j = k := by
    have hWaiting := hFlushed.waiting
    have hSpace := hFlushed.availOut
    have hAll := hFlushed.all
    have hWaiting' := hOther.waiting
    have hSpace' := hOther.availOut
    have hAll' := hOther.all
    omega
  rw [hFlushed.strm, hOther.strm, hSame]

/- All that waits is given out before. -/
theorem FlushedObuf.calledOn
    {k : Nat}
    (hFlushed : FlushedObuf st st₂ k)
    (hReady : RoundReady st)
    (hAll : st.s.obuf.bytes = k) :
    CalledOn st st₂ := by
  have hReady₂ := hFlushed.ready hReady
  have hLe := hFlushed.waiting
  rw [← Obuf.length_waiting] at hAll
  have hSame :
      st₂.s.h = st.s.h ∧
        st₂.s.obuf.total = st.s.obuf.total ∧
        st₂.s.obuf.waiting = st.s.obuf.waiting.drop k ∧
        st₂.strm.nextIn = st.strm.nextIn ∧
        st₂.strm.availOut =
          st.strm.availOut -
            (st.s.obuf.waiting.take k).length := by
    rw [hFlushed.strm]
    exact ⟨rfl, rfl, Obuf.waiting_giveOut _ _, rfl, rfl⟩
  rcases hSame with ⟨hH, hTotal, hWaiting, hIn, hOut⟩
  refine ⟨⟨k, hFlushed⟩, hReady₂, hH, hTotal, ?_, hIn, ?_⟩
  · rw [hWaiting]
    exact List.drop_eq_nil_of_le hAll.le
  · rw [hOut, List.length_take, ← Obuf.length_waiting]
    omega

theorem hInflateStart_calls
    (hReady : RoundReady st)
    (hBuffered : st.s.obuf.total ≠ 0)
    (hStart : hInflateStart flush st = .inr st₂) :
    CallsFirst flush st ∧ CalledOn st st₂ := by
  have hOutcome := hInflateStart_outcome flush hReady.obuf
    hReady.atEnd
  generalize hResult : hInflateStart flush st = result
    at hOutcome hStart
  cases hOutcome with
  | drain _ _ _ => cases hStart
  | full _ _ => cases hStart
  | noInput _ _ _ _ _ => cases hStart
  | @send st₁ k hFlushed hRunning hNone hRoom hAsked =>
      cases hStart
      have hLe := hFlushed.waiting
      have hOut := hFlushed.availOut
      have hAll : st.s.obuf.bytes = k := by
        rw [hFlushed.strm] at hNone
        simp only [Obuf.waiting_giveOut,
          List.drop_eq_nil_iff] at hNone
        rw [← Obuf.length_waiting]
        omega
      have hCalled := FlushedObuf.calledOn hFlushed hReady hAll
      refine ⟨⟨hBuffered, ?_, by omega, ?_, ?_⟩, hCalled⟩
      · rw [hFlushed.strm] at hRunning
        exact hRunning
      · intro hFull
        rw [hCalled.h] at hRoom
        rcases hRoom with hDrained | hSpace
        · exact hDrained
        · rw [hCalled.availOut, hFull, Nat.sub_self] at hSpace
          exact absurd rfl hSpace
      · unfold waitsForInput at hAsked ⊢
        rw [hCalled.nextIn] at hAsked
        exact hAsked

theorem CallsFirst.start
    (hCalls : CallsFirst flush st)
    (hReady : RoundReady st) :
    ∃ st₂, hInflateStart flush st = .inr st₂ := by
  rcases hInflateFlushObuf_spec hReady.atEnd with
    ⟨k, hFlushed⟩
  have hLe := hFlushed.waiting
  have hGiven := hCalls.given
  have hAll : st.s.obuf.bytes = k := by
    rcases hFlushed.all with hFull | hAll
    · rw [Obuf.length_waiting] at hLe
      omega
    · rw [← Obuf.length_waiting]
      exact hAll
  have hCalled := FlushedObuf.calledOn hFlushed hReady hAll
  have hRc : (hInflateFlushObuf st).s.rc = st.s.rc := by
    rw [hFlushed.strm]
  unfold hInflateStart
  generalize hInflateFlushObuf st = st₂ at hCalled hRc ⊢
  have hBytes : st₂.s.obuf.bytes = 0 := by
    rw [← Obuf.length_waiting, hCalled.waiting]
    rfl
  have hAsked : ¬ waitsForInput flush st₂ := by
    unfold waitsForInput
    rw [hCalled.nextIn]
    exact hCalls.asked
  have hEmpty :=
    hCalled.ready.obuf.isEmpty_iff.mpr hCalled.waiting
  simp only
  rw [if_neg fun hBoth => hCalls.running (hRc ▸ hBoth.1),
    if_neg, if_neg hAsked, if_neg (not_not.mpr hEmpty)]
  · exact ⟨st₂, rfl⟩
  · rintro ⟨hSome | hSome, hFull⟩
    · exact hSome hBytes
    · apply hSome
      unfold zedcInflatePendingOutput
      rw [hCalled.h]
      apply hCalls.room
      rw [hCalled.availOut] at hFull
      omega

/- What stands behind a call that changes no output. -/
structure BehindCall
    (disabled internal : Bool)
    (flush : Flush)
    (env : InflateEnv)
    (st st₂ : HInflate)
    (ret : InflRet)
    (st₃ : HInflate) : Prop where
  round :
    hInflateRound disabled internal flush env st =
      hInflateResult disabled st₃
  ready : RoundReady st₃
  rc : st₃.s.rc = ret.rc
  block : st₃.strm.dataType80 = ret.strm.dataType80
  waiting :
    ret.strm.nextOut = st₂.s.h.nextOut →
      st₃.s.obuf.waiting = []
  availOut :
    ret.strm.availOut =
        (hInflateOffer internal st₂).availOut →
      st₃.strm.availOut = st₂.strm.availOut

theorem behindCall
    (disabled : Bool)
    {ret : InflRet}
    (hStart : hInflateStart flush st = .inr st₂)
    (hCalled : CalledOn st st₂)
    (hCall :
      zedcInflate flush env (hInflateOffer internal st₂) =
        some ret) :
    ∃ st₃,
      BehindCall disabled internal flush env st st₂ ret
        st₃ := by
  have hRound :
      hInflateRound disabled internal flush env st =
        (hInflateSent internal flush env st₂).bind
          (hInflateResult disabled) := by
    unfold hInflateRound
    rw [hStart]
    simp only
    cases hInflateSent internal flush env st₂ <;> rfl
  cases hSent : hInflateSent internal flush env st₂ with
  | none =>
      unfold hInflateSent hInflateCall at hSent
      simp only at hSent
      rw [hCall] at hSent
      cases hSent
  | some st₃ =>
      have hReady := (hInflateSent_kept hCalled.ready hSent).2.1
      rcases hInflateSent_some hSent with
        ⟨ret', hCall', _, _, hRc, hState⟩
      rw [hCall] at hCall'
      cases hCall'
      rw [hSent] at hRound
      refine ⟨st₃, hRound, hReady, hRc, ?_, ?_, ?_⟩
      · rw [hState]
        cases internal <;> rfl
      · intro hNothing
        rw [hState]
        cases internal with
        | true =>
            simp [hInflateFill, hInflateTake, Obuf.waiting,
              newInflOutput, hInflateOffer, hNothing]
        | false => exact hCalled.waiting
      · intro hNothing
        rw [hState]
        cases internal with
        | true => rfl
        | false => exact hNothing

/- The header of the stream that a call is made on. -/
theorem HeaderFirst.offered
    (hFirst : HeaderFirst st.s.h)
    (hH : st₂.s.h = st.s.h) :
    HeaderFirst (hInflateOffer internal st₂) := by
  rw [← hH] at hFirst
  exact hFirst.congr rfl rfl rfl rfl rfl rfl rfl id

/- Whether an error that is not listed ends the call. -/
theorem unreported_iff
    {ret : InflRet}
    (hFirst : HeaderFirst st.s.h)
    (hStart : hInflateStart flush st = .inr st₂)
    (hCalled : CalledOn st st₂)
    (hCall :
      zedcInflate flush env (hInflateOffer internal st₂) =
        some ret)
    (hError : Unreported (hInflateOffer internal st₂) ret) :
    (∃ rc st',
      hInflateRound disabled internal flush env st =
          some (.inl (rc, st')) ∧ rc.IsNegative) ↔
      ret.strm.dataType80 = true ∧
        st₂.strm.availOut ≠ 0 := by
  rcases behindCall disabled hStart hCalled hCall with
    ⟨st₃, hBehind⟩
  rcases hError.rc with ⟨hNegative, hNot⟩
  have hIs :
      ret.strm.nextOut = st₂.s.h.nextOut ∧
        ret.strm.availOut =
          (hInflateOffer internal st₂).availOut := by
    cases hError with
    | tooLarge _ => exact ⟨rfl, rfl⟩
    | header hSmall hSpace hRefused =>
        rcases zedcInflate_refuses
            (hFirst.offered hCalled.h) hSmall hSpace hRefused
            flush env with
          ⟨s', hAnswer, -, hOut, hNext⟩
        rw [hAnswer] at hCall
        cases hCall
        exact ⟨hNext, hOut⟩
  rcases hIs with ⟨hNext, hOut⟩
  rw [hBehind.round, hInflateResult_negative_iff disabled
    hBehind.ready.atEnd (hBehind.waiting hNext)
    (hBehind.rc ▸ hNegative) (hBehind.rc ▸ hNot),
    hBehind.block, hBehind.availOut hOut]

/- Behind a round that goes on the header is done. -/
theorem zedcInflate_opened
    {s : InflStream} {ret : InflRet}
    (hFirst : HeaderFirst s)
    (hSpace : s.availOut ≠ 0)
    (hCall : zedcInflate flush env s = some ret)
    (hOn : GoesOn ret)
    (hGood : ¬ Unreported s ret) :
    HeaderGone ret.strm := by
  rcases hFirst.first with hGone | ⟨hQuiet, -⟩
  · exact (zedcInflate_headerFirst hFirst hCall).2 hGone
  have hNot : ret.rc ≠ .errGzipHdr := by
    intro hIs
    apply hGood
    apply zedcInflate_unreported hCall
    · rw [hIs]
      decide
    · rw [hIs]
      decide
  unfold zedcInflate at hCall
  cases hPrepare : inflatePrepare flush s with
  | none =>
      rw [hPrepare] at hCall
      cases hCall
  | some result =>
      have hOutcome := inflatePrepare_outcome hPrepare
      rw [hPrepare] at hCall
      cases hOutcome with
      | tooLarge hLarge =>
          cases hCall
          exact absurd (.tooLarge hLarge) hGood
      | overrun _ _ =>
          cases hCall
          exact absurd rfl hOn.streamError
      | trailer _ hFlushed hEob =>
          rw [Flushed.drained hFlushed hQuiet.drained,
            eobSeen_of_inData] at hEob
          · cases hEob
          · exact ⟨hQuiet.data.eobSeen,
              hQuiet.data.inflStat⟩
      | full _ hFlushed _ hFull =>
          rw [Flushed.drained hFlushed hQuiet.drained] at hFull
          exact absurd hFull hSpace
      | header _ _ _ _ hHeader hRc =>
          cases hCall
          rcases (inflateHeader_passed hHeader).2 with
            hIs | hIs | hIs
          · exact absurd hIs hRc
          · exact absurd hIs hNot
          · exact absurd hIs hOn.needDict
      | block _ _ _ _ _ hBlock =>
          cases hCall
          rw [hOn.block] at hBlock
          cases hBlock
      | noInput _ _ _ _ _ _ hNone _ =>
          cases hCall
          exact absurd (List.eq_nil_of_length_eq_zero hNone)
            hOn.input
      | ready _ hFlushed _ _ hHeader _ hSome =>
          have hRemoved := hFirst.removed hFlushed hHeader
          exact HeaderGone.kept (inflateSubmit_kept hCall)
            (hRemoved.submits hSome)

/- The bad byte is one of the input that is offered. -/
theorem headerRefused_offered_iff
    (hCalled : CalledOn st st₂) :
    HeaderRefused (hInflateOffer internal st₂) ↔
      HeaderRefused
        { st.s.h with nextIn := st.strm.nextIn } := by
  apply headerRefused_congr
  · exact (congrArg InflStream.format hCalled.h :)
  · exact (congrArg InflStream.prefx hCalled.h :)
  · exact hCalled.nextIn

end Rounds

------------------------------------------------------------
-- Every Call
------------------------------------------------------------

section Reported

variable {disabled : Bool} {flush : Flush}
variable {env : Nat → InflateEnv} {st : HInflate}

/-
  What holds in front of a round: it is the first one, or the
  header is done and there is not too much input.
-/
structure InFront (st : HInflate) (n : Nat) (s : HInflate) :
    Prop where
  ready : RoundReady s
  buffered : s.s.obuf.total ≠ 0
  header : HeaderFirst s.s.h
  which :
    n = 0 ∧ s = st ∨
      HeaderGone s.s.h ∧
        s.strm.nextIn.length ≤ zedcInflAvailInMax

/- An error that is not listed is one of the first round. -/
theorem swallowed_of_unreported
    {st₂ : HInflate} {ret : InflRet}
    (hCalled : CalledOn st st₂)
    (hError :
      Unreported
        (hInflateOffer (useInternalBuffer st) st₂) ret)
    (hAnswer :
      ret.rc = .memError →
        ¬ (st.s.h.dataType80 = true ∧
          st.s.obuf.bytes < st.strm.availOut)) :
    Swallowed st := by
  have hInput :
      (hInflateOffer (useInternalBuffer st) st₂).availIn =
        st.strm.nextIn.length :=
    congrArg List.length hCalled.nextIn
  cases hError with
  | tooLarge hLarge =>
      rw [hInput] at hLarge
      exact .tooLarge hLarge (hAnswer rfl)
  | header hSmall hSpace hRefused =>
      rw [hInput] at hSmall
      refine .header hSmall ?_
        ((headerRefused_offered_iff hCalled).mp hRefused)
      have hOut := hCalled.availOut
      unfold hInflateOffer at hSpace
      cases hInternal : useInternalBuffer st with
      | true => exact Or.inl rfl
      | false =>
          rw [hInternal] at hSpace
          simp only [Bool.false_eq_true, if_false] at hSpace
          right
          omega

theorem InFront.step
    {n : Nat} {s s' : HInflate}
    (hNot : ¬ (CallsFirst flush st ∧ Swallowed st))
    (hFront : InFront st n s)
    (hRound :
      hInflateRound disabled (useInternalBuffer st) flush
          (env n) s = some (.inr s')) :
    InFront st (n + 1) s' := by
  have hOn := hInflateRound_on hFront.ready hRound
  cases hStart : hInflateStart flush s with
  | inl ret =>
      unfold hInflateRound at hRound
      rw [hStart] at hRound
      cases hRound
  | inr s₂ =>
      rcases hInflateStart_calls hFront.ready hFront.buffered
        hStart with ⟨hCalls, hCalled⟩
      rcases hCalled.flushed with ⟨j, hBefore⟩
      rcases hOn.call with
        ⟨s₁, k, ret, hFlushed, hCall, hGoesOn, hH, hIn, hOut⟩
      obtain rfl := flushedObuf_unique hFlushed hBefore
      have hFirst : HeaderFirst
          (hInflateOffer (useInternalBuffer st) s₁) :=
        hFront.header.offered hCalled.h
      have hNext := zedcInflate_headerFirst hFirst hCall
      have hShrinks := (zedcInflate_moves hCall).shrinks
      simp only [InflStream.account, hInflateOffer,
        hCalled.nextIn] at hShrinks
      refine ⟨hOn.ready, hOn.total ▸ hFront.buffered,
        hH ▸ hNext.1, Or.inr ?_⟩
      rw [hH, hIn]
      rcases hFront.which with ⟨rfl, rfl⟩ | ⟨hGone, hSmall⟩
      swap
      · have hGone' : HeaderGone
            (hInflateOffer (useInternalBuffer st) s₁) := by
          rw [← hCalled.h] at hGone
          exact hGone
        exact ⟨hNext.2 hGone', hShrinks.1.trans hSmall⟩
      -- the first round goes on, so that no error was passed
      have hGood :
          ¬ Unreported
            (hInflateOffer (useInternalBuffer s) s₁) ret := by
        intro hError
        apply hNot
        refine ⟨hCalls,
          swallowed_of_unreported hCalled hError ?_⟩
        rintro hRc ⟨hBlock, -⟩
        cases hError with
        | tooLarge _ =>
            have hOff := hGoesOn.block
            have hSame : s₁.s.h.dataType80 = true := by
              rw [hCalled.h]
              exact hBlock
            have hOff : s₁.s.h.dataType80 = false := hOff
            rw [hSame] at hOff
            cases hOff
        | header _ _ _ => cases hRc
      have hRoom :
          (hInflateOffer (useInternalBuffer s) s₁).availOut ≠
            0 := by
        have hSpace := hOn.space
        have hBuffered := hFront.buffered
        rw [hOut] at hSpace
        unfold hInflateOffer
        cases hInternal : useInternalBuffer s with
        | true =>
            simp only [if_true]
            rw [hCalled.total]
            exact hBuffered
        | false =>
            rw [hInternal] at hSpace hShrinks
            simp only [Bool.false_eq_true, if_false]
              at hSpace hShrinks ⊢
            omega
      refine ⟨zedcInflate_opened hFirst hRoom hCall hGoesOn
        hGood, ?_⟩
      by_contra hNotSmall
      have hLarge :
          zedcInflAvailInMax <
            (hInflateOffer (useInternalBuffer s)
              s₁).availIn := by
        have hLen :
            (hInflateOffer (useInternalBuffer s)
              s₁).availIn = s.strm.nextIn.length :=
          congrArg List.length hCalled.nextIn
        rw [hLen]
        omega
      rw [zedcInflate_tooLarge _ _ hLarge] at hCall
      have hRet := (Option.some.inj hCall).symm
      subst hRet
      exact hGood (.tooLarge hLarge)

/-
  A call of `h_inflate` in any state that calls reach hands on
  every error but those of its first round that are listed.
-/
theorem errorsReported_call_iff
    {cfg : InflateConfig}
    (call : HInflateCall)
    (hReach : Reachable disabled cfg st) :
    ErrorsReported disabled call.flush call.env
        (call.offer st) ↔
      ¬ (CallsFirst call.flush (call.offer st) ∧
        Swallowed (call.offer st)) := by
  have hReady : RoundReady (call.offer st) :=
    ⟨(obufOk_of_reachable hReach :), atEnd_offer _ _ _⟩
  have hHeader : HeaderFirst (call.offer st).s.h :=
    (headerFirst_of_reachable hReach :)
  generalize call.offer st = st at hReady hHeader ⊢
  constructor
  · rintro hReported ⟨hCalls, hSwallowed⟩
    have hMore : ¬ AllGiven st := fun hGiven =>
      hCalls.running hGiven.2.2
    rcases hCalls.start hReady with ⟨st₂, hStart⟩
    have hCalled :=
      (hInflateStart_calls hReady hCalls.buffered hStart).2
    have hFirst : HeaderFirst
        (hInflateOffer (useInternalBuffer st) st₂) :=
      hHeader.offered hCalled.h
    have hLen :
        (hInflateOffer (useInternalBuffer st) st₂).availIn =
          st.strm.nextIn.length :=
      congrArg List.length hCalled.nextIn
    have hError :
        ∃ ret,
          zedcInflate call.flush (call.env 0)
              (hInflateOffer (useInternalBuffer st) st₂) =
            some ret ∧
          Unreported
            (hInflateOffer (useInternalBuffer st) st₂) ret ∧
          ¬ (ret.strm.dataType80 = true ∧
            st₂.strm.availOut ≠ 0) := by
      cases hSwallowed with
      | tooLarge hLarge hNot =>
          rw [← hLen] at hLarge
          refine ⟨_, zedcInflate_tooLarge _ _ hLarge,
            .tooLarge hLarge, ?_⟩
          rintro ⟨hBlock, hSpace⟩
          have hBlock : st₂.s.h.dataType80 = true := hBlock
          rw [hCalled.h] at hBlock
          rw [hCalled.availOut] at hSpace
          exact hNot ⟨hBlock, by omega⟩
      | header hSmall hRoom hRefused =>
          rw [← hLen] at hSmall
          have hSpace :
              (hInflateOffer (useInternalBuffer st)
                st₂).availOut ≠ 0 := by
            have hOut := hCalled.availOut
            unfold hInflateOffer
            cases hInternal : useInternalBuffer st with
            | true =>
                simp only [if_true]
                rw [hCalled.total]
                exact hCalls.buffered
            | false =>
                rw [hInternal] at hRoom
                simp only [Bool.false_eq_true, if_false,
                  false_or] at hRoom ⊢
                omega
          have hRefused' :=
            (@headerRefused_offered_iff
              (useInternalBuffer st) _ _ hCalled).mpr hRefused
          rcases zedcInflate_refuses hFirst hSmall hSpace
              hRefused' call.flush (call.env 0) with
            ⟨s', hCall, hBlock, -⟩
          refine ⟨_, hCall,
            .header hSmall hSpace hRefused', ?_⟩
          rintro ⟨hIs, -⟩
          rw [hBlock] at hIs
          cases hIs
    rcases hError with ⟨ret, hCall, hError, hNot⟩
    have hMade := CallMade.loop hCalls.buffered hMore
      (@LoopReaches.start _ _
        (hInflateRounds disabled (useInternalBuffer st)
          call.flush call.env) st) hStart hCall
    exact hNot
      ((unreported_iff hHeader hStart hCalled hCall
        hError).mp (hReported _ _ hMade hError.rc.1))
  · intro hNot ret result hMade hNegative
    cases hMade with
    | direct hDirect hCall =>
        have hDone : ∃ st',
            hInflateDirect call.flush (call.env 0) st =
              some (ret.rc, st') := by
          unfold hInflateDirect hInflateCall
          simp only
          rw [hCall]
          exact ⟨_, rfl⟩
        rcases hDone with ⟨st', hDone⟩
        rw [hDone]
        exact ⟨ret.rc, st', rfl, hNegative⟩
    | @loop n st₁ st₂ _ hBuffered hMore hReaches hStart
        hCall =>
        have hFront : InFront st n st₁ := by
          apply hReaches.invariant (InFront st)
          · exact ⟨hReady, hBuffered, hHeader,
              Or.inl ⟨rfl, rfl⟩⟩
          · intro n s s' hFront hRound
            exact hFront.step hNot hRound
        rcases hInflateStart_calls hFront.ready
          hFront.buffered hStart with ⟨hCalls, hCalled⟩
        by_cases hIs : Reported ret.rc
        · rcases behindCall disabled hStart hCalled hCall with
            ⟨st₃, hBehind⟩
          have hAnswer : hInflateRound disabled
              (useInternalBuffer st) call.flush (call.env n)
              st₁ =
              some (.inl (st₃.s.rc, hInflateFlushObuf st₃)) :=
            hBehind.round.trans
              (hInflateResult_reported disabled
                (hBehind.rc ▸ hIs))
          refine ⟨st₃.s.rc, hInflateFlushObuf st₃, hAnswer, ?_⟩
          rw [hBehind.rc]
          exact hNegative
        · have hError :=
            zedcInflate_unreported hCall hNegative hIs
          apply (unreported_iff hFront.header hStart hCalled
            hCall hError).mpr
          rcases hFront.which with ⟨rfl, rfl⟩ | ⟨hGone, hSmall⟩
          · by_contra hLost
            refine hNot ⟨hCalls,
              swallowed_of_unreported hCalled hError ?_⟩
            rintro hRc ⟨hBlock, hSpace⟩
            apply hLost
            have hOut := hCalled.availOut
            cases hError with
            | tooLarge _ =>
                refine ⟨?_, by omega⟩
                rw [← hCalled.h] at hBlock
                exact hBlock
            | header _ _ _ => cases hRc
          · -- later rounds meet neither
            have hIn := hCalled.nextIn
            cases hError with
            | tooLarge hLarge =>
                have hLarge :
                    zedcInflAvailInMax <
                      st₂.strm.nextIn.length := hLarge
                rw [hIn] at hLarge
                omega
            | header _ _ hRefused =>
                have hRefused :=
                  (headerRefused_offered_iff hCalled).mp
                    hRefused
                rcases hGone with hDefl | hDone
                · exact absurd hDefl hRefused.format
                · exact absurd hDone hRefused.headerState

end Reported

end Session
