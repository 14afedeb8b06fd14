import GenWqe.Hardware.InflateRuns
import GenWqe.Inflate.Calls

/-
  The calls an application makes on an inflate stream of the
  zEDC library itself, with the states that any sequence of
  them reaches.

  Key definitions include:
    * `InflateArgs`, `InflateOp`, `InflateLabel`
    * `inflateOpStep`, `InflateRun`
    * `inflateSubmits`

  Main results:
    * `zedcInflate_header`
    * `inflatePrepare_open`, `inflatePrepare_behind`
    * `inflatePrepare_dictKept`
    * `zedcInflate_format`
-/

------------------------------------------------------------
-- Calls
------------------------------------------------------------

namespace Session

open Zedc Hardware

/-
  What the caller chooses for a call of `zedc_inflate`: its
  buffers and the flush value; and the card it finds.
-/
structure InflateArgs where
  nextIn : List UInt8
  availOut : Nat
  flush : Flush
  env : InflateEnv

/- The caller's buffers are offered. -/
def InflateArgs.offer
    (args : InflateArgs) (s : InflStream) : InflStream :=
  { s with
    nextIn := args.nextIn
    availOut := args.availOut }

/- `zedc_inflateGetHeader` -/
def zedcInflateGetHeader
    (head : GzedcHeader) (s : InflStream) : InflStream :=
  { s with
    prefx :=
      { s.prefx with
        gzipHead := some { head with done := false } } }

/- `zedc_inflateGetDictionary`: the bytes, and their number. -/
def zedcInflateGetDictionary
    (s : InflStream) : List UInt8 × Nat :=
  ((s.dict.dict s.dict.wspPage).window
      s.dict.outDictOffs s.dict.dictLen,
    s.dict.dictLen)

/-
  A call on an inflate stream. `reset` is
  `zedc_inflateReset2`, and `zedc_inflateReset` where the
  value is that of the stream.
-/
inductive InflateOp where
  | inflate (args : InflateArgs)
  | setDictionary (dictionary : List UInt8)
  | getHeader (head : GzedcHeader)
  | readPending (len : Nat)
  | reset (windowBits : Int)

/- A call, what it returns, and the stream it leaves. -/
def InflateOp.run
    (s : InflStream) : InflateOp → Option (Rc × InflStream)
  | .inflate args =>
      (zedcInflate args.flush args.env (args.offer s)).map
        fun ret => (ret.rc, ret.strm)
  | .setDictionary dictionary =>
      some (zedcInflateSetDictionary dictionary s)
  | .getHeader head =>
      some (.ok, zedcInflateGetHeader head s)
  | .readPending len =>
      match zedcReadPendingOutput len s with
      | none => some (.errDictOverrun, s)
      | some (_, s) => some (.ok, s)
  | .reset windowBits =>
      some (zedcInflateReset windowBits s)

/- A call, the stream it was made on, and what it returned. -/
structure InflateLabel where
  before : InflStream
  op : InflateOp
  rc : Rc

/- One call on the stream; a fault ends a run. -/
def inflateOpStep
    (s : InflStream)
    (l : InflateLabel)
    (s' : InflStream) : Prop :=
  l.before = s ∧ l.op.run s = some (l.rc, s')

/- A run of calls on a stream that was set up. -/
def InflateRun
    (cfg : InflateConfig)
    (format : Format)
    (trace : List InflateLabel)
    (s : InflStream) : Prop :=
  Run inflateOpStep (zedcInflateInit2 cfg format) trace s

/- The call of `zedc_inflate` submits a DDCB. -/
def inflateSubmits (flush : Flush) (s : InflStream) : Bool :=
  match inflatePrepare flush s with
  | some (.inr _) => true
  | _ => false

------------------------------------------------------------
-- What a DDCB Leaves Alone
------------------------------------------------------------

/- The header, the format and the checksum it asks for. -/
structure HeaderKept (s s' : InflStream) : Prop where
  format : s'.format = s.format
  prefx : s'.prefx = s.prefx
  dataType80 : s'.dataType80 = s.dataType80
  dictAdler32 : s'.dictAdler32 = s.dictAdler32

namespace HeaderKept

theorem refl (s : InflStream) : HeaderKept s s :=
  ⟨rfl, rfl, rfl, rfl⟩

theorem trans
    {s s₁ s₂ : InflStream}
    (hFirst : HeaderKept s s₁)
    (hNext : HeaderKept s₁ s₂) :
    HeaderKept s s₂ :=
  ⟨hNext.format.trans hFirst.format,
    hNext.prefx.trans hFirst.prefx,
    hNext.dataType80.trans hFirst.dataType80,
    hNext.dictAdler32.trans hFirst.dictAdler32⟩

end HeaderKept

theorem inflateTrailer_kept (s : InflStream) :
    HeaderKept s (inflateTrailer s).2 := by
  rcases (inflateTrailer_passed s).1 with ⟨k, hPassed⟩
  rw [hPassed.strm]
  exact ⟨rfl, rfl, rfl, rfl⟩

theorem inflateEobSeen_kept (s : InflStream) :
    HeaderKept s (inflateEobSeen s) := by
  unfold inflateEobSeen
  split <;> exact ⟨rfl, rfl, rfl, rfl⟩

/- Nor does the trailer touch the dictionary. -/
theorem inflateTrailer_dict (s : InflStream) :
    (inflateTrailer (inflateEobSeen s)).2.dict = s.dict := by
  have hSeen : (inflateEobSeen s).dict = s.dict := by
    unfold inflateEobSeen
    split <;> rfl
  rcases (inflateTrailer_passed (inflateEobSeen s)).1 with
    ⟨k, hPassed⟩
  rw [hPassed.strm]
  exact hSeen

theorem inflateCheck_kept
    (ex : InflExchange) (rc : Rc) (s : InflStream) :
    HeaderKept s (inflateCheck ex rc s).2 := by
  have hFinish :
      HeaderKept s (inflateFinish (inflateStore ex s)).2 := by
    have hTaken :
        HeaderKept s
          (inflateEobSeen
            ((inflateStore ex s).advance
              (inflateStore ex s).inpDataOffs)) := by
      have hStored :
          HeaderKept s
            ((inflateStore ex s).advance
              (inflateStore ex s).inpDataOffs) :=
        ⟨rfl, rfl, rfl, rfl⟩
      exact hStored.trans (inflateEobSeen_kept _)
    unfold inflateFinish
    simp only
    split
    · exact hTaken.trans (inflateTrailer_kept _)
    · exact hTaken
  unfold inflateCheck
  split
  · exact .refl s
  · split
    · exact .refl s
    · split
      · exact ⟨rfl, rfl, rfl, rfl⟩
      · exact hFinish

theorem inflateSubmit_kept
    {flush : Flush}
    {env : InflateEnv}
    {s : InflStream}
    {ret : InflRet}
    (hSubmit : inflateSubmit flush env s = some ret) :
    HeaderKept s ret.strm := by
  cases inflateSubmit_tried hSubmit with
  | tried hTried _ =>
      rw [hTried.strm]
      exact ⟨rfl, rfl, rfl, rfl⟩
  | done hUpdate _ =>
      have hChanged := (postScratchUpd_changes hUpdate).1.strm
      refine HeaderKept.trans ?_ (inflateCheck_kept _ _ _)
      rw [hChanged]
      exact ⟨rfl, rfl, rfl, rfl⟩

------------------------------------------------------------
-- What a Call Does to the Header
------------------------------------------------------------

/- Neither the final block was seen, nor is output pending. -/
structure Quiet (s : InflStream) : Prop where
  data : InData s
  drained : s.dict.obytesInDict = 0

/- So it is when a stream is set up. -/
theorem quiet_initState (s : InflStream) :
    Quiet (inflateInitState s) := by
  refine ⟨⟨rfl, ?_⟩, rfl⟩
  show finalEob 0 = false
  decide

/- A quiet stream on which only output space was looked at. -/
structure Stays (s s' : InflStream) : Prop where
  quiet : Quiet s'
  totalIn : s'.totalIn = s.totalIn
  save : s'.save = s.save

/-
  A call leaves the header alone, or it comes to the header
  and returns, or goes on to a DDCB.
-/
inductive HeaderOutcome
    (flush : Flush) (s : InflStream) (rc : Rc) :
    InflStream → Prop
  | kept
      {s' : InflStream} :
      HeaderKept s s' →
      rc ≠ .needDict →
      (Quiet s → Stays s s') →
      HeaderOutcome flush s rc s'
  | returned
      {s₁ s₂ : InflStream} {n : Nat} {rc₂ : Rc} :
      s.availIn ≤ zedcInflAvailInMax →
      Flushed s s₁ n →
      InData s₁ →
      s₁.availOut ≠ 0 →
      HeaderDone flush s₁ s₂ rc₂ →
      rc = rc₂ ∨ rc₂ = .ok ∧ rc ≠ .needDict →
      HeaderOutcome flush s rc s₂
  | submitted
      {s₁ s₂ s' : InflStream} {n : Nat} :
      s.availIn ≤ zedcInflAvailInMax →
      Flushed s s₁ n →
      InData s₁ →
      s₁.availOut ≠ 0 →
      HeaderDone flush s₁ s₂ .ok →
      HeaderKept s₂ s' →
      inflateSubmits flush s = true →
      ¬ (s₂.availIn = 0 ∧ s₂.save.scratchBits = 0) →
      HeaderOutcome flush s rc s'

theorem Flushed.kept
    {s s₁ : InflStream}
    {n : Nat}
    (hFlushed : Flushed s s₁ n) : HeaderKept s s₁ := by
  rw [hFlushed.strm]
  exact ⟨rfl, rfl, rfl, rfl⟩

/- The trailer never asks for a dictionary. -/
theorem inflateTrailer_needDict (s : InflStream) :
    (inflateTrailer (inflateEobSeen s)).1 ≠ .needDict := by
  intro hNeed
  rcases (inflateTrailer_passed (inflateEobSeen s)).2 with
    hOk | hErr | hEnd
  · cases hOk.symm.trans hNeed
  · cases hErr.symm.trans hNeed
  · cases hEnd.1.symm.trans hNeed

/- What a call of `zedc_inflate` comes to, for the header. -/
theorem zedcInflate_header
    {flush : Flush}
    {env : InflateEnv}
    {s : InflStream}
    {ret : InflRet}
    (hCall : zedcInflate flush env s = some ret) :
    HeaderOutcome flush s ret.rc ret.strm := by
  unfold zedcInflate at hCall
  cases hPrepare : inflatePrepare flush s with
  | none =>
      rw [hPrepare] at hCall
      cases hCall
  | some result =>
      have hOutcome := inflatePrepare_outcome hPrepare
      rw [hPrepare] at hCall
      cases hOutcome with
      | tooLarge _ =>
          cases hCall
          exact .kept (.refl s) (fun h => by cases h)
            fun hQuiet => ⟨hQuiet, rfl, rfl⟩
      | overrun _ _ =>
          cases hCall
          exact .kept ⟨rfl, rfl, rfl, rfl⟩ (fun h => by cases h)
            fun hQuiet =>
              ⟨⟨⟨hQuiet.data.eobSeen, hQuiet.data.inflStat⟩,
                hQuiet.drained⟩, rfl, rfl⟩
      | @trailer s₁ n _ hFlushed hEob =>
          have hRet := Option.some.inj hCall
          subst hRet
          refine .kept
            ((Flushed.kept hFlushed).trans
              ((inflateEobSeen_kept s₁).trans
                (inflateTrailer_kept _))) ?_ ?_
          · exact inflateTrailer_needDict s₁
          · intro hQuiet
            rw [hFlushed.strm] at hEob
            have hOpen : InData (s.giveOut n) :=
              ⟨hQuiet.data.eobSeen, hQuiet.data.inflStat⟩
            rw [eobSeen_of_inData hOpen] at hEob
            cases hEob
      | full _ hFlushed hData _ =>
          cases hCall
          refine .kept (Flushed.kept hFlushed) (fun h => by cases h) ?_
          intro hQuiet
          rw [hFlushed.strm]
          refine ⟨⟨⟨hQuiet.data.eobSeen,
            hQuiet.data.inflStat⟩, ?_⟩, rfl, rfl⟩
          simp [InflStream.giveOut, hQuiet.drained]
      | header hSmall hFlushed hData hSpace hHeader _ =>
          cases hCall
          exact .returned hSmall hFlushed hData hSpace hHeader
            (Or.inl rfl)
      | block hSmall hFlushed hData hSpace hHeader _ =>
          cases hCall
          exact .returned hSmall hFlushed hData hSpace hHeader
            (Or.inl rfl)
      | noInput hSmall hFlushed hData hSpace hHeader =>
          cases hCall
          refine .returned hSmall hFlushed hData hSpace
            hHeader (Or.inr ⟨rfl, ?_⟩)
          unfold inflateChkRet
          split <;> (intro hSame; cases hSame)
      | ready hSmall hFlushed hData hSpace hHeader _ hSome =>
          refine .submitted hSmall hFlushed hData hSpace
            hHeader (inflateSubmit_kept hCall) ?_ hSome
          unfold inflateSubmits
          rw [hPrepare]

------------------------------------------------------------
-- Behind the Header
------------------------------------------------------------

/-
  A call behind the header, with output space left when the
  pending output has been given out.
-/
structure Behind (s : InflStream) : Prop where
  headerState : s.prefx.headerState = .headerDone
  data : InData s
  space : s.dict.obytesInDict < s.availOut

/- Where nothing is pending, nothing is given out. -/
theorem giveOut_drained
    {s : InflStream}
    (hDrained : s.dict.obytesInDict = 0) :
    s.giveOut s.dict.obytesInDict =
      { s with inpDataOffs := 0 } := by
  simp only [InflStream.giveOut, hDrained, List.take_zero,
    List.append_nil, Nat.sub_zero, Nat.add_zero]
  rw [← hDrained]

theorem Flushed.drained
    {s s₁ : InflStream}
    {n : Nat}
    (hFlushed : Flushed s s₁ n)
    (hNone : s.dict.obytesInDict = 0) :
    s₁ = { s with inpDataOffs := 0 } := by
  have hAll : n = s.dict.obytesInDict := by
    have hLe := hFlushed.pending
    omega
  rw [hFlushed.strm, hAll, giveOut_drained hNone]

/- With output space left a call comes to the header. -/
theorem inflatePrepare_open
    {flush : Flush}
    {s : InflStream}
    (hData : InData s)
    (hSpace : s.dict.obytesInDict < s.availOut)
    (hSmall : s.availIn ≤ zedcInflAvailInMax)
    (hFits : s.dict.obytesInDict ≤ s.dict.dictLen) :
    inflatePrepare flush s =
      inflatePrefix flush
        (s.giveOut s.dict.obytesInDict) := by
  have hFlush :
      inflateFlushOutputBuffer { s with inpDataOffs := 0 } =
        (.ok, s.giveOut s.dict.obytesInDict) := by
    have hMin :
        min s.availOut s.dict.obytesInDict =
          s.dict.obytesInDict :=
      Nat.min_eq_right hSpace.le
    unfold inflateFlushOutputBuffer
    simp only [hMin]
    split
    · rename_i hNone
      rw [giveOut_drained hNone]
    · rw [if_neg (Nat.not_lt.mpr hFits)]
      rfl
  have hOpen : InData (s.giveOut s.dict.obytesInDict) :=
    ⟨hData.eobSeen, hData.inflStat⟩
  have hLeft :
      (s.giveOut s.dict.obytesInDict).availOut ≠ 0 :=
    Nat.sub_ne_zero_of_lt hSpace
  generalize s.giveOut s.dict.obytesInDict = s₁ at *
  have hSeen : inflateEobSeen s₁ = s₁ := by
    unfold inflateEobSeen
    rw [hOpen.inflStat]
    rfl
  unfold inflatePrepare
  rw [if_neg (Nat.not_lt.mpr hSmall), hFlush]
  simp only [ne_eq, not_true_eq_false, if_false]
  rw [hSeen]
  unfold inflateEntry
  rw [hOpen.eobSeen, if_neg Bool.false_ne_true,
    if_neg hLeft]

/- Behind the header it goes on to a DDCB, or returns. -/
theorem inflatePrepare_behind
    {flush : Flush}
    {s : InflStream}
    (hBehind : Behind s)
    (hSmall : s.availIn ≤ zedcInflAvailInMax)
    (hFits : s.dict.obytesInDict ≤ s.dict.dictLen) :
    inflatePrepare flush s =
      if s.dataType80 then
        some (.inl (.ok, s.giveOut s.dict.obytesInDict))
      else if s.availIn = 0 ∧ s.save.scratchBits = 0 then
        some (.inl (.ok, s.giveOut s.dict.obytesInDict))
      else some (.inr (s.giveOut s.dict.obytesInDict)) := by
  have hDone :
      inflateHeader flush (s.giveOut s.dict.obytesInDict) =
        some (.ok, s.giveOut s.dict.obytesInDict) :=
    if_neg (not_not.mpr hBehind.headerState)
  have hStat :
      finalEob
          (s.giveOut s.dict.obytesInDict).asv.inflStat =
        false :=
    hBehind.data.inflStat
  have hRet :
      inflateChkRet (s.giveOut s.dict.obytesInDict) =
        .ok := by
    unfold inflateChkRet
    rw [hStat]
    rfl
  rw [inflatePrepare_open hBehind.data hBehind.space hSmall
    hFits]
  unfold inflatePrefix
  rw [hDone]
  simp only [ne_eq, not_true_eq_false, if_false, hRet]
  rfl

/- Or it is refused. -/
theorem zedcInflate_refused
    {flush : Flush}
    {env : InflateEnv}
    {s : InflStream}
    (hRefused :
      ¬ (s.availIn ≤ zedcInflAvailInMax ∧
        s.dict.obytesInDict ≤ s.dict.dictLen)) :
    ∃ ret,
      zedcInflate flush env s = some ret ∧
        ret.rc.IsNegative := by
  unfold zedcInflate inflatePrepare
  by_cases hLarge : s.availIn > zedcInflAvailInMax
  · have hNegative : Rc.memError.IsNegative := by decide
    rw [if_pos hLarge]
    exact ⟨_, rfl, hNegative⟩
  · have hOver : s.dict.dictLen < s.dict.obytesInDict := by
      omega
    have hSome : ¬ s.dict.obytesInDict = 0 := by omega
    have hNegative : Rc.streamError.IsNegative := by decide
    rw [if_neg hLarge]
    unfold inflateFlushOutputBuffer
    simp only
    rw [if_neg hSome, if_pos hOver]
    exact ⟨_, rfl, hNegative⟩

------------------------------------------------------------
-- What Is Left of the Dictionary
------------------------------------------------------------

/- The dictionary that a DDCB is given. -/
structure InflDictKept (s s' : InflStream) : Prop where
  dict : s'.dict.dict = s.dict.dict
  wspPage : s'.dict.wspPage = s.dict.wspPage
  dictLen : s'.dict.dictLen = s.dict.dictLen
  outDictOffs : s'.dict.outDictOffs = s.dict.outDictOffs

namespace InflDictKept

theorem refl (s : InflStream) : InflDictKept s s :=
  ⟨rfl, rfl, rfl, rfl⟩

theorem trans
    {s s₁ s₂ : InflStream}
    (hFirst : InflDictKept s s₁)
    (hNext : InflDictKept s₁ s₂) :
    InflDictKept s s₂ :=
  ⟨hNext.dict.trans hFirst.dict,
    hNext.wspPage.trans hFirst.wspPage,
    hNext.dictLen.trans hFirst.dictLen,
    hNext.outDictOffs.trans hFirst.outDictOffs⟩

theorem of_dict
    {s s' : InflStream}
    (hSame : s'.dict = s.dict) : InflDictKept s s' := by
  refine ⟨?_, ?_, ?_, ?_⟩ <;> rw [hSame]

end InflDictKept

/-
  The header changes neither dictionary nor format, nor is a
  header structure lost or found.
-/
theorem inflateHeader_side
    {flush : Flush}
    {s s' : InflStream}
    {rc : Rc}
    (hDone : HeaderDone flush s s' rc) :
    s'.dict = s.dict ∧ s'.format = s.format ∧
      s'.prefx.gzipHead.isSome =
        s.prefx.gzipHead.isSome := by
  unfold HeaderDone inflateHeader
    inflateFormatRemHeader at hDone
  split at hDone
  swap
  · cases hDone
    exact ⟨rfl, rfl, rfl⟩
  split at hDone
  · cases hDone
    exact ⟨rfl, rfl, rfl⟩
  have hPrepared :
      (remHeaderPrepare s).dict = s.dict ∧
        (remHeaderPrepare s).format = s.format ∧
        (remHeaderPrepare s).prefx.gzipHead =
          s.prefx.gzipHead ∧
        (remHeaderPrepare s).nextIn = s.nextIn := by
    unfold remHeaderPrepare
    split <;> exact ⟨rfl, rfl, rfl, rfl⟩
  simp only at hDone
  cases hLoop :
      remHeaderLoop s.nextIn (remHeaderPrepare s) with
  | none =>
      rw [hLoop] at hDone
      cases hDone
  | some result =>
      rcases result with ⟨rc₁, s₁⟩
      rcases hPrepared with ⟨hDict, hFormat, hHead, hInput⟩
      rcases (remHeaderLoop_spec hInput hLoop).1 with
        ⟨k, hTaken⟩
      have hSome := hTaken.head
      rw [hHead] at hSome
      have hSide :
          s₁.dict = s.dict ∧ s₁.format = s.format := by
        rw [hTaken.strm]
        exact ⟨hDict, hFormat⟩
      rw [hLoop] at hDone
      simp only at hDone
      split at hDone <;> cases hDone <;>
        exact ⟨hSide.1, hSide.2, hSome⟩

/- Up to the DDCB only pending output is given out. -/
theorem inflatePrepare_dictKept
    {flush : Flush}
    {s : InflStream}
    {result : Sum (Rc × InflStream) InflStream}
    (hPrepare : inflatePrepare flush s = some result) :
    InflDictKept s (result.elim Prod.snd id) := by
  have hGiven :
      ∀ {s₁ n}, Flushed s s₁ n → InflDictKept s s₁ := by
    intro s₁ n hFlushed
    rw [hFlushed.strm]
    exact ⟨rfl, rfl, rfl, rfl⟩
  cases inflatePrepare_outcome hPrepare with
  | tooLarge _ => exact .refl s
  | overrun _ _ => exact ⟨rfl, rfl, rfl, rfl⟩
  | @trailer s₁ _ _ hFlushed _ =>
      exact (hGiven hFlushed).trans
        (.of_dict (inflateTrailer_dict s₁))
  | full _ hFlushed _ _ => exact hGiven hFlushed
  | header _ hFlushed _ _ hDone _ =>
      exact (hGiven hFlushed).trans
        (.of_dict (inflateHeader_side hDone).1)
  | block _ hFlushed _ _ hDone _ =>
      exact (hGiven hFlushed).trans
        (.of_dict (inflateHeader_side hDone).1)
  | noInput _ hFlushed _ _ hDone =>
      exact (hGiven hFlushed).trans
        (.of_dict (inflateHeader_side hDone).1)
  | ready _ hFlushed _ _ hDone _ _ =>
      exact (hGiven hFlushed).trans
        (.of_dict (inflateHeader_side hDone).1)

/-
  A call changes neither the format nor whether a header
  structure is registered.
-/
theorem zedcInflate_format
    {flush : Flush}
    {env : InflateEnv}
    {s : InflStream}
    {ret : InflRet}
    (hCall : zedcInflate flush env s = some ret) :
    ret.strm.format = s.format ∧
      ret.strm.prefx.gzipHead.isSome =
        s.prefx.gzipHead.isSome := by
  have hSame :
      ∀ {s₁ s₂}, HeaderKept s₁ s₂ →
        s₂.format = s₁.format ∧
          s₂.prefx.gzipHead.isSome =
            s₁.prefx.gzipHead.isSome := by
    intro s₁ s₂ hKept
    exact ⟨hKept.format, by rw [hKept.prefx]⟩
  cases zedcInflate_header hCall with
  | kept hKept _ _ => exact hSame hKept
  | returned _ hFlushed _ _ hDone _ =>
      have hGiven := hSame (Flushed.kept hFlushed)
      have hSide := inflateHeader_side hDone
      exact ⟨hSide.2.1.trans hGiven.1,
        hSide.2.2.trans hGiven.2⟩
  | submitted _ hFlushed _ _ hDone hKept _ _ =>
      have hGiven := hSame (Flushed.kept hFlushed)
      have hSide := inflateHeader_side hDone
      have hSent := hSame hKept
      exact ⟨hSent.1.trans (hSide.2.1.trans hGiven.1),
        hSent.2.trans (hSide.2.2.trans hGiven.2)⟩

end Session
