import GenWqe.Session.Inflate

/-
  Preset dictionaries: what `zedc_inflate` does between the
  answer `ZEDC_NEED_DICT` and an accepted dictionary.

  Key definitions include:
    * `FdictHeader`, `dictid`
    * `Reading`, `Asked`
    * `locked`, `wanted`
    * `Gated`, `Waits`

  Main results:
    * `remHeaderLoop_reading`
    * `zedcInflate_reading`, `zedcInflate_asked`
    * `gated_iff`
-/

------------------------------------------------------------
-- A Header With FDICT
------------------------------------------------------------

namespace Session

open Zedc Hardware

/- The first two bytes, most significant first. -/
def cmfFlg (src : ByteMem) : Nat :=
  (src 0).toNat * 2 ^ 8 + (src 1).toNat

/- A stream that starts with a ZLIB header with FDICT set. -/
structure FdictHeader (src : ByteMem) : Prop where
  fcheck : cmfFlg src % 31 = 0
  method : cmfFlg src &&& 0x0f00 = 0x0800
  window : cmfFlg src &&& 0xf000 ≤ 0x7000
  fdict : cmfFlg src &&& 0x0020 ≠ 0

/- DICTID, the four bytes behind them. -/
def dictid (src : ByteMem) : UInt32 :=
  (src 2).toUInt32 <<< 24 ||| (src 3).toUInt32 <<< 16 |||
    (src 4).toUInt32 <<< 8 ||| (src 5).toUInt32

/-
  Less than the six bytes of the header were read, and nothing
  else was done.
-/
structure Reading (src : ByteMem) (s : InflStream) :
    Prop where
  format : s.format = .zlib
  totalIn : s.totalIn = s.prefx.idx
  idx : s.prefx.idx ≤ 5
  bytes : ∀ i < s.prefx.idx, s.prefx.bytes i = src i
  state :
    s.prefx.headerState =
      if s.prefx.idx < 2 then .headerStart else .zlibAdler
  scratch : s.save.scratchBits = 0
  quiet : Quiet s

/- The header was read, and its dictionary was asked for. -/
structure Asked (src : ByteMem) (s : InflStream) : Prop where
  format : s.format = .zlib
  state : s.prefx.headerState = .headerDone
  dictAdler32 : s.dictAdler32 = dictid src

section Header

variable {src : ByteMem} {s : InflStream}

theorem Asked.congr
    {s' : InflStream}
    (hAsked : Asked src s)
    (hKept : HeaderKept s s') : Asked src s' :=
  ⟨hKept.format.trans hAsked.format,
    (congrArg Prefx.headerState hKept.prefx).trans
      hAsked.state,
    hKept.dictAdler32.trans hAsked.dictAdler32⟩

theorem collect_eq
    {p : Prefx}
    (b : UInt8)
    (hIdx : p.idx ≤ 5) :
    p.collect b =
      { p with bytes := p.bytes.store p.idx [b] } := by
  have hLt : p.idx < zedcFormatStorage := by
    unfold zedcFormatStorage
    omega
  unfold Prefx.collect
  rw [if_pos hLt]

theorem store_here
    (m : ByteMem) (off : Nat) (b : UInt8) :
    m.store off [b] off = b := by
  simp [ByteMem.store]

theorem store_before
    {i off : Nat}
    (m : ByteMem) (b : UInt8)
    (hLt : i < off) :
    m.store off [b] i = m i := by
  simp [ByteMem.store, Nat.not_le.mpr hLt]

/- Each byte of the header goes where it belongs. -/
theorem Reading.bytes_collect
    (hReading : Reading src s)
    {i : Nat}
    (hLe : i ≤ s.prefx.idx) :
    (s.prefx.collect (src s.prefx.idx)).bytes i = src i := by
  rw [collect_eq _ hReading.idx]
  simp only
  rcases Nat.lt_or_eq_of_le hLe with hLt | rfl
  · rw [store_before _ _ hLt]
    exact hReading.bytes i hLt
  · exact store_here _ _ _

/- The parser in the state that one more byte leads to. -/
theorem Reading.parse
    (hHeader : FdictHeader src)
    (hReading : Reading src s) :
    inflateRemZlibHeader
        (s.prefx.collect (src s.prefx.idx)) =
      if s.prefx.idx < 5 then
        ⟨.needMoreData,
          { s.prefx.collect (src s.prefx.idx) with
            headerState :=
              if s.prefx.idx < 1 then .headerStart
              else .zlibAdler },
          none⟩
      else
        ⟨.zlibNeedDict,
          { s.prefx.collect (src s.prefx.idx) with
            headerState := .headerDone },
          some (dictid src)⟩ := by
  have hBytes :
      ∀ i ≤ s.prefx.idx,
        (s.prefx.collect (src s.prefx.idx)).bytes i =
          src i :=
    fun i hLe => hReading.bytes_collect hLe
  have hKeeps :=
    (s.prefx.collect_keeps (src s.prefx.idx)).idx
  have hState :
      (s.prefx.collect (src s.prefx.idx)).headerState =
        if s.prefx.idx < 2 then .headerStart
        else .zlibAdler := by
    rw [collect_eq _ hReading.idx]
    exact hReading.state
  have hIdx := hReading.idx
  generalize s.prefx.collect (src s.prefx.idx) = p at *
  generalize s.prefx.idx = idx at *
  have hSame : p.idx = idx := hKeeps
  subst hSame
  unfold inflateRemZlibHeader
  by_cases hFirst : p.idx < 1
  · rw [if_pos hFirst, if_pos (by omega), if_pos hFirst]
  rw [if_neg hFirst, hState]
  by_cases hSecond : p.idx < 2
  · -- the second byte completes CMF and FLG
    have hOne : p.idx = 1 := by omega
    have hVal :
        (p.bytes 0).toNat * 2 ^ 8 + (p.bytes 1).toNat =
          cmfFlg src := by
      rw [hBytes 0 (Nat.zero_le _), hBytes 1 hOne.ge]
      rfl
    rw [if_pos hSecond, if_pos (by omega), if_neg hFirst]
    unfold zlibStartStep
    simp only [hVal]
    rw [if_pos hOne, if_neg (not_not.mpr hHeader.fcheck),
      if_neg (not_or.mpr ⟨not_not.mpr hHeader.method,
        Nat.not_lt.mpr hHeader.window⟩),
      if_pos hHeader.fdict]
  · rw [if_neg hSecond]
    unfold zlibAdlerStep
    simp only
    by_cases hLast : p.idx = 5
    · -- the sixth byte completes DICTID
      rw [if_pos hLast, if_neg (by omega)]
      unfold dictid
      rw [hBytes 2 (by omega), hBytes 3 (by omega),
        hBytes 4 (by omega), hBytes 5 (by omega)]
    · rw [if_neg hLast, if_pos (by omega), if_neg hFirst]

end Header

------------------------------------------------------------
-- Reading the Header
------------------------------------------------------------

section Loop

variable {src : ByteMem} {s s' : InflStream}

/- One byte of the header. -/
theorem Reading.byte
    (hHeader : FdictHeader src)
    (hReading : Reading src s) :
    (∃ s₁,
      inflateRemHeaderByte (src s.totalIn) s =
          some (.needMoreData, s₁) ∧
        Reading src s₁.passHeaderByte) ∨
    ∃ s₁,
      inflateRemHeaderByte (src s.totalIn) s =
          some (.zlibNeedDict, s₁) ∧
        Asked src s₁.passHeaderByte := by
  have hParse := hReading.parse hHeader
  have hSame :=
    (s.prefx.collect_keeps (src s.prefx.idx)).1
  have hNotGzip : ¬ s.format = .gzip := by
    rw [hReading.format]
    decide
  have hIdx := hReading.idx
  unfold inflateRemHeaderByte
  simp only
  rw [if_neg hNotGzip, hReading.totalIn, hParse]
  by_cases hMore : s.prefx.idx < 5
  · left
    rw [if_pos hMore]
    refine ⟨_, rfl, ?_⟩
    refine ⟨hReading.format, ?_, ?_, ?_, ?_,
      hReading.scratch, ⟨⟨hReading.quiet.data.eobSeen,
        hReading.quiet.data.inflStat⟩,
        hReading.quiet.drained⟩⟩
    · simp only [InflStream.passHeaderByte,
        InflStream.advance, hSame]
    · simp only [InflStream.passHeaderByte, hSame]
      omega
    · intro i hLt
      simp only [InflStream.passHeaderByte, hSame] at hLt
      exact hReading.bytes_collect (Nat.lt_succ_iff.mp hLt)
    · simp only [InflStream.passHeaderByte, hSame]
      by_cases hFirst : s.prefx.idx < 1
      · rw [if_pos hFirst, if_pos (Nat.succ_lt_succ hFirst)]
      · rw [if_neg hFirst,
          if_neg fun hLt => hFirst (Nat.lt_of_succ_lt_succ hLt)]
  · right
    rw [if_neg hMore]
    exact ⟨_, rfl, hReading.format, rfl, rfl⟩

/- Either all input is read, or the header is complete. -/
theorem remHeaderLoop_reading
    {bs : List UInt8}
    {rc : Rc}
    (hHeader : FdictHeader src)
    (hReading : Reading src s)
    (hBytes : s.nextIn = bs)
    (hFed : FedFrom src s)
    (hLoop : remHeaderLoop bs s = some (rc, s')) :
    rc = .ok ∧ Reading src s' ∧ s'.nextIn = [] ∨
      rc = .needDict ∧ Asked src s' := by
  induction bs generalizing s with
  | nil =>
      cases hLoop
      exact Or.inl ⟨rfl, hReading, hBytes⟩
  | cons b rest ih =>
      unfold FedFrom at hFed
      rw [hBytes, List.length_cons,
        ByteMem.window_succ] at hFed
      rcases List.cons.inj hFed with ⟨rfl, hRest⟩
      unfold remHeaderLoop at hLoop
      rcases hReading.byte hHeader with
        ⟨s₁, hByte, hNext⟩ | ⟨s₁, hByte, hAsked⟩
      · have hStrm := (inflateRemHeaderByte_keeps hByte).strm
        have hNextIn : s₁.passHeaderByte.nextIn = rest := by
          have hOffered : s₁.nextIn = s.nextIn :=
            (congrArg InflStream.nextIn hStrm :)
          simp [InflStream.passHeaderByte,
            InflStream.advance, hOffered, hBytes]
        have hTotalIn :
            s₁.passHeaderByte.totalIn = s.totalIn + 1 := by
          have hTaken : s₁.totalIn = s.totalIn :=
            (congrArg InflStream.totalIn hStrm :)
          rw [← hTaken]
          rfl
        rw [hByte] at hLoop
        refine ih hNext hNextIn ?_ hLoop
        unfold FedFrom
        rw [hNextIn, hTotalIn]
        exact hRest
      · rw [hByte] at hLoop
        cases hLoop
        exact Or.inr ⟨rfl, hAsked⟩

/- The removal is prepared when its first byte is read. -/
def Prepared (s : InflStream) : Prop :=
  s.prefx.len = 0 → s.prefx.idx = 0

theorem Reading.prepare
    (hReading : Reading src s)
    (hPrepared : Prepared s) :
    Reading src (remHeaderPrepare s) ∧
      (remHeaderPrepare s).nextIn = s.nextIn ∧
      (remHeaderPrepare s).totalIn = s.totalIn ∧
      (remHeaderPrepare s).prefx.len ≠ 0 := by
  have hQuiet := hReading.quiet
  unfold remHeaderPrepare
  by_cases hLen : s.prefx.len = 0
  · have hIdx := hPrepared hLen
    have hTotalIn := hReading.totalIn
    have hBytes := hReading.bytes
    have hState := hReading.state
    rw [hIdx] at hTotalIn hBytes hState
    rw [if_pos hLen]
    refine ⟨⟨hReading.format, hTotalIn, Nat.zero_le _,
      hBytes, hState, hReading.scratch,
      ⟨hQuiet.data.eobSeen, hQuiet.data.inflStat⟩,
      hQuiet.drained⟩, rfl, rfl, ?_⟩
    simp only
    split <;> decide
  · rw [if_neg hLen]
    exact ⟨⟨hReading.format, hReading.totalIn, hReading.idx,
      hReading.bytes, hReading.state, hReading.scratch,
      ⟨hQuiet.data.eobSeen, hQuiet.data.inflStat⟩,
      hQuiet.drained⟩, rfl, rfl, hLen⟩

/- The bit 0x80 of `data_type` plays no part in it. -/
theorem Reading.setBit
    (hReading : Reading src s)
    (bit : Bool) :
    Reading src { s with dataType80 := bit } :=
  ⟨hReading.format, hReading.totalIn, hReading.idx,
    hReading.bytes, hReading.state, hReading.scratch,
    ⟨hReading.quiet.data.eobSeen,
      hReading.quiet.data.inflStat⟩,
    hReading.quiet.drained⟩

/- Removing the header in one call. -/
theorem Reading.header
    {flush : Flush}
    {rc : Rc}
    (hHeader : FdictHeader src)
    (hReading : Reading src s)
    (hPrepared : Prepared s)
    (hFed : FedFrom src s)
    (hDone : HeaderDone flush s s' rc) :
    rc = .ok ∧ Reading src s' ∧ Prepared s' ∧
        s'.nextIn = [] ∨
      rc = .needDict ∧ Asked src s' := by
  have hOpen : s.prefx.headerState ≠ .headerDone := by
    rw [hReading.state]
    split <;> decide
  have hNotDefl : s.format ≠ .defl := by
    rw [hReading.format]
    decide
  rcases hReading.prepare hPrepared with
    ⟨hReady, hNextIn, hTotalIn, hLen⟩
  have hFedReady : FedFrom src (remHeaderPrepare s) := by
    unfold FedFrom at hFed ⊢
    rw [hNextIn, hTotalIn]
    exact hFed
  unfold HeaderDone inflateHeader
    inflateFormatRemHeader at hDone
  rw [if_pos hOpen, if_neg hNotDefl] at hDone
  simp only at hDone
  cases hLoop :
      remHeaderLoop s.nextIn (remHeaderPrepare s) with
  | none =>
      rw [hLoop] at hDone
      cases hDone
  | some result =>
      rcases result with ⟨rc₁, s₁⟩
      rw [hLoop] at hDone
      have hLen₁ : s₁.prefx.len ≠ 0 := by
        rcases (remHeaderLoop_spec hNextIn hLoop).1 with
          ⟨k, hTaken⟩
        rw [hTaken.len]
        exact hLen
      rcases remHeaderLoop_reading hHeader hReady hNextIn
          hFedReady hLoop with
        ⟨rfl, hReading₁, hNone⟩ | ⟨rfl, hAsked⟩
      · left
        simp only at hDone
        split at hDone
        · cases hDone
          exact ⟨rfl, hReading₁.setBit true,
            fun hZero => absurd hZero hLen₁, hNone⟩
        · cases hDone
          exact ⟨rfl, hReading₁,
            fun hZero => absurd hZero hLen₁, hNone⟩
      · right
        have hNotOk : (Rc.needDict == Rc.ok) = false := by
          decide
        simp only [hNotOk, Bool.and_false] at hDone
        cases hDone
        exact ⟨rfl, hAsked⟩

end Loop

------------------------------------------------------------
-- One Call
------------------------------------------------------------

section Calls

variable {src : ByteMem} {s s' : InflStream}

theorem Reading.kept
    (hReading : Reading src s)
    (hKept : HeaderKept s s')
    (hStays : Stays s s') : Reading src s' := by
  have hPrefx := hKept.prefx
  refine ⟨hKept.format.trans hReading.format, ?_, ?_, ?_, ?_,
    ?_, hStays.quiet⟩
  · rw [hStays.totalIn, hPrefx]
    exact hReading.totalIn
  · rw [hPrefx]
    exact hReading.idx
  · rw [hPrefx]
    exact hReading.bytes
  · rw [hPrefx]
    exact hReading.state
  · rw [hStays.save]
    exact hReading.scratch

/- A call while the header is read. -/
theorem zedcInflate_reading
    {flush : Flush}
    {env : InflateEnv}
    {ret : InflRet}
    (hHeader : FdictHeader src)
    (hReading : Reading src s)
    (hPrepared : Prepared s)
    (hFed : FedFrom src s)
    (hCall : zedcInflate flush env s = some ret) :
    ret.rc ≠ .needDict ∧ Reading src ret.strm ∧
        Prepared ret.strm ∨
      ret.rc = .needDict ∧ Asked src ret.strm := by
  have hFlush :
      ∀ {s₁ n}, Flushed s s₁ n →
        Reading src s₁ ∧ Prepared s₁ ∧ FedFrom src s₁ := by
    intro s₁ n hFlushed
    rw [Flushed.drained hFlushed hReading.quiet.drained]
    refine ⟨hReading.kept ⟨rfl, rfl, rfl, rfl⟩
      ⟨⟨⟨hReading.quiet.data.eobSeen,
        hReading.quiet.data.inflStat⟩,
        hReading.quiet.drained⟩, rfl, rfl⟩, hPrepared, hFed⟩
  cases zedcInflate_header hCall with
  | kept hKept hNot hStays =>
      left
      refine ⟨hNot, hReading.kept hKept
        (hStays hReading.quiet), ?_⟩
      unfold Prepared
      rw [hKept.prefx]
      exact hPrepared
  | returned _ hFlushed _ _ hDone hRc =>
      rcases hFlush hFlushed with
        ⟨hReading₁, hPrepared₁, hFed₁⟩
      rcases hReading₁.header hHeader hPrepared₁ hFed₁
          hDone with
        ⟨rfl, hReading₂, hPrepared₂, _⟩ | ⟨rfl, hAsked⟩
      · left
        refine ⟨?_, hReading₂, hPrepared₂⟩
        rcases hRc with hOk | ⟨_, hNot⟩
        · rw [hOk]
          decide
        · exact hNot
      · right
        rcases hRc with hNeed | ⟨hOk, _⟩
        · exact ⟨hNeed, hAsked⟩
        · cases hOk
  | submitted _ hFlushed _ _ hDone _ _ hSome =>
      -- without its header the stream has no data yet
      rcases hFlush hFlushed with
        ⟨hReading₁, hPrepared₁, hFed₁⟩
      rcases hReading₁.header hHeader hPrepared₁ hFed₁
          hDone with
        ⟨_, hReading₂, _, hNone⟩ | ⟨hOk, _⟩
      · exact absurd
          ⟨congrArg List.length hNone, hReading₂.scratch⟩
          hSome
      · cases hOk

/- A call when the dictionary was asked for. -/
theorem zedcInflate_asked
    {flush : Flush}
    {env : InflateEnv}
    {ret : InflRet}
    (hAsked : Asked src s)
    (hCall : zedcInflate flush env s = some ret) :
    Asked src ret.strm ∧
      (ret.rc = .needDict →
        inflateSubmits flush s = true) := by
  have hBehind :
      ∀ {s₁ s₂ n rc}, Flushed s s₁ n →
        HeaderDone flush s₁ s₂ rc →
          rc = .ok ∧ Asked src s₂ := by
    intro s₁ s₂ n rc hFlushed hDone
    have hAsked₁ := hAsked.congr (Flushed.kept hFlushed)
    unfold HeaderDone inflateHeader at hDone
    rw [if_neg (not_not.mpr hAsked₁.state)] at hDone
    cases hDone
    exact ⟨rfl, hAsked₁⟩
  cases zedcInflate_header hCall with
  | kept hKept hNot _ =>
      exact ⟨hAsked.congr hKept, fun hRc => absurd hRc hNot⟩
  | returned _ hFlushed _ _ hDone hRc =>
      rcases hBehind hFlushed hDone with ⟨rfl, hAsked₂⟩
      refine ⟨hAsked₂, fun hNeed => ?_⟩
      rcases hRc with hOk | ⟨_, hNot⟩
      · cases hOk.symm.trans hNeed
      · exact absurd hNeed hNot
  | submitted _ hFlushed _ _ hDone hKept hSubmits _ =>
      exact ⟨(hBehind hFlushed hDone).2.congr hKept,
        fun _ => hSubmits⟩

/- A dictionary that is set, or refused. -/
theorem zedcInflateSetDictionary_kept
    (dictionary : List UInt8) (s : InflStream) :
    HeaderKept s
        (zedcInflateSetDictionary dictionary s).2 ∧
      (Quiet s →
        Stays s
          (zedcInflateSetDictionary dictionary s).2) := by
  unfold zedcInflateSetDictionary
  split
  · exact ⟨.refl s, fun hQuiet => ⟨hQuiet, rfl, rfl⟩⟩
  · split
    · exact ⟨.refl s, fun hQuiet => ⟨hQuiet, rfl, rfl⟩⟩
    · exact ⟨⟨rfl, rfl, rfl, rfl⟩, fun hQuiet =>
        ⟨⟨⟨hQuiet.data.eobSeen, hQuiet.data.inflStat⟩,
          hQuiet.drained⟩, rfl, rfl⟩⟩

/- The dictionary that the header names. -/
def fits (src : ByteMem) (dictionary : List UInt8) : Bool :=
  adler32 1 dictionary == (dictid src).toNat

/- Just such dictionaries are accepted. -/
theorem Asked.accepts
    (hAsked : Asked src s)
    (dictionary : List UInt8) :
    ((zedcInflateSetDictionary dictionary s).1 == .ok) =
      (decide (dictionary.length ≤ zedcDictLen) &&
        fits src dictionary) := by
  unfold zedcInflateSetDictionary
  by_cases hLarge : dictionary.length > zedcDictLen
  · rw [if_pos hLarge,
      decide_eq_false (Nat.not_le.mpr hLarge)]
    rfl
  · rw [if_neg hLarge,
      decide_eq_true (Nat.not_lt.mp hLarge), Bool.true_and]
    unfold fits
    by_cases hSame :
        adler32 1 dictionary = (dictid src).toNat
    · rw [if_neg, beq_iff_eq.mpr hSame]
      · rfl
      · rw [hAsked.dictAdler32]
        exact fun hBoth => hBoth.2 hSame
    · rw [if_pos, beq_eq_false_iff_ne.mpr hSame]
      · rfl
      · rw [hAsked.dictAdler32]
        exact ⟨hAsked.format, hSame⟩

end Calls

------------------------------------------------------------
-- The Gate
------------------------------------------------------------

/-
  A call on a stream that is fed from `src`: it inflates the
  next bytes, or sets a dictionary.
-/
def GateOp (src : ByteMem) (s : InflStream) :
    InflateOp → Prop
  | .inflate args => FedFrom src (args.offer s)
  | .setDictionary _ => True
  | _ => False

def gateStep
    (src : ByteMem)
    (s : InflStream)
    (l : InflateLabel)
    (s' : InflStream) : Prop :=
  inflateOpStep s l s' ∧ GateOp src s l.op

/- A run of such calls on a ZLIB stream. -/
def GateRun
    (cfg : InflateConfig)
    (src : ByteMem)
    (trace : List InflateLabel)
    (s : InflStream) : Prop :=
  Run (gateStep src) (zedcInflateInit2 cfg .zlib) trace s

/-
  `ZEDC_NEED_DICT` was returned, and since then no dictionary
  with the DICTID of the header was accepted.
-/
def lockedAfter
    (src : ByteMem) (locked : Bool) (l : InflateLabel) :
    Bool :=
  match l.op with
  | .inflate _ => locked || l.rc == .needDict
  | .setDictionary dictionary =>
      locked && !(l.rc == .ok && fits src dictionary)
  | _ => locked

def locked
    (src : ByteMem) (trace : List InflateLabel) : Bool :=
  trace.foldl (lockedAfter src) false

/-
  `ZEDC_NEED_DICT` was returned, and since then the caller has
  not offered a dictionary with the DICTID of the header.
-/
def wantedAfter
    (src : ByteMem) (wanted : Bool) (l : InflateLabel) :
    Bool :=
  match l.op with
  | .inflate _ => wanted || l.rc == .needDict
  | .setDictionary dictionary =>
      wanted &&
        !(decide (dictionary.length ≤ zedcDictLen) &&
          fits src dictionary)
  | _ => wanted

def wanted
    (src : ByteMem) (trace : List InflateLabel) : Bool :=
  trace.foldl (wantedAfter src) false

/-
  Every call of `zedc_inflate` on the locked stream returns
  `ZEDC_NEED_DICT`, with neither a DDCB nor output.
-/
def Gated (src : ByteMem) (trace : List InflateLabel) :
    Prop :=
  ∀ past l rest args s',
    trace = past ++ l :: rest →
      l.op = .inflate args →
        locked src past = true →
          l.op.run l.before = some (l.rc, s') →
            l.rc = .needDict ∧
              inflateSubmits args.flush
                  (args.offer l.before) = false ∧
              s'.nextOut = l.before.nextOut

/- No call of `zedc_inflate` is made without the dictionary. -/
def Waits (src : ByteMem) (trace : List InflateLabel) :
    Prop :=
  ∀ past l rest args,
    trace = past ++ l :: rest →
      l.op = .inflate args →
        wanted src past = false

section Gate

variable {src : ByteMem} {trace : List InflateLabel}
variable {cfg : InflateConfig} {s s' : InflStream}
variable {l : InflateLabel}

theorem locked_append :
    locked src (trace ++ [l]) =
      lockedAfter src (locked src trace) l :=
  List.foldl_append

theorem wanted_append :
    wanted src (trace ++ [l]) =
      wantedAfter src (wanted src trace) l :=
  List.foldl_append

/- Where a run has got to. -/
inductive GateInv
    (src : ByteMem) (trace : List InflateLabel)
    (s : InflStream) : Prop
  | reading :
      Reading src s →
      Prepared s →
      locked src trace = false →
      wanted src trace = false →
      GateInv src trace s
  | asked :
      Asked src s →
      locked src trace = wanted src trace →
      GateInv src trace s

theorem reading_init :
    Reading src (zedcInflateInit2 cfg .zlib) :=
  ⟨rfl, rfl, Nat.zero_le _, fun _ hLt => absurd hLt
    (Nat.not_lt_zero _), rfl, rfl, quiet_initState _⟩

theorem GateInv.inflate
    {args : InflateArgs}
    {ret : InflRet}
    (hHeader : FdictHeader src)
    (hInv : GateInv src trace s)
    (hFed : FedFrom src (args.offer s))
    (hOp : l.op = .inflate args)
    (hRc : l.rc = ret.rc)
    (hCall :
      zedcInflate args.flush args.env (args.offer s) =
        some ret) :
    GateInv src (trace ++ [l]) ret.strm := by
  have hLocked :
      locked src (trace ++ [l]) =
        (locked src trace || ret.rc == .needDict) := by
    rw [locked_append]
    unfold lockedAfter
    rw [hOp, hRc]
  have hWanted :
      wanted src (trace ++ [l]) =
        (wanted src trace || ret.rc == .needDict) := by
    rw [wanted_append]
    unfold wantedAfter
    rw [hOp, hRc]
  cases hInv with
  | reading hReading hPrepared hOpen hNone =>
      have hOffer : Reading src (args.offer s) :=
        hReading.kept ⟨rfl, rfl, rfl, rfl⟩
          ⟨⟨⟨hReading.quiet.data.eobSeen,
            hReading.quiet.data.inflStat⟩,
            hReading.quiet.drained⟩, rfl, rfl⟩
      rcases zedcInflate_reading hHeader hOffer hPrepared hFed
          hCall with
        ⟨hNot, hReading', hPrepared'⟩ | ⟨_, hAsked⟩
      · have hBeq : (ret.rc == .needDict) = false :=
          beq_eq_false_iff_ne.mpr hNot
        refine .reading hReading' hPrepared' ?_ ?_
        · rw [hLocked, hOpen, hBeq]
          rfl
        · rw [hWanted, hNone, hBeq]
          rfl
      · refine .asked hAsked ?_
        rw [hLocked, hWanted, hOpen, hNone]
  | asked hAsked hSame =>
      have hOffer : Asked src (args.offer s) :=
        hAsked.congr ⟨rfl, rfl, rfl, rfl⟩
      refine .asked (zedcInflate_asked hOffer hCall).1 ?_
      rw [hLocked, hWanted, hSame]

theorem GateInv.setDictionary
    {dictionary : List UInt8}
    (hInv : GateInv src trace s)
    (hOp : l.op = .setDictionary dictionary)
    (hRc :
      l.rc = (zedcInflateSetDictionary dictionary s).1) :
    GateInv src (trace ++ [l])
      (zedcInflateSetDictionary dictionary s).2 := by
  have hLocked :
      locked src (trace ++ [l]) =
        (locked src trace &&
          !((zedcInflateSetDictionary dictionary s).1 == .ok &&
            fits src dictionary)) := by
    rw [locked_append]
    unfold lockedAfter
    rw [hOp, hRc]
  have hWanted :
      wanted src (trace ++ [l]) =
        (wanted src trace &&
          !(decide (dictionary.length ≤ zedcDictLen) &&
            fits src dictionary)) := by
    rw [wanted_append]
    unfold wantedAfter
    rw [hOp]
  rcases zedcInflateSetDictionary_kept dictionary s with
    ⟨hKept, hStays⟩
  cases hInv with
  | reading hReading hPrepared hOpen hNone =>
      refine .reading
        (hReading.kept hKept (hStays hReading.quiet)) ?_ ?_ ?_
      · unfold Prepared
        rw [hKept.prefx]
        exact hPrepared
      · rw [hLocked, hOpen, Bool.false_and]
      · rw [hWanted, hNone, Bool.false_and]
  | asked hAsked hSame =>
      refine .asked (hAsked.congr hKept) ?_
      rw [hLocked, hWanted, hSame, hAsked.accepts,
        Bool.and_assoc, Bool.and_self]

theorem GateInv.step
    (hHeader : FdictHeader src)
    (hInv : GateInv src trace s)
    (hStep : gateStep src s l s') :
    GateInv src (trace ++ [l]) s' := by
  rcases hStep with ⟨⟨hBefore, hOp⟩, hGate⟩
  cases hKind : l.op with
  | inflate args =>
      rw [hKind] at hOp hGate
      rcases Option.map_eq_some_iff.mp hOp with
        ⟨ret, hCall, hRet⟩
      have hStrm : ret.strm = s' := congrArg Prod.snd hRet
      rw [← hStrm]
      exact hInv.inflate hHeader hGate hKind
        (congrArg Prod.fst hRet).symm hCall
  | setDictionary dictionary =>
      rw [hKind] at hOp
      have hRet := Option.some.inj hOp
      have hStrm :
          (zedcInflateSetDictionary dictionary s).2 = s' :=
        congrArg Prod.snd hRet
      rw [← hStrm]
      exact hInv.setDictionary hKind
        (congrArg Prod.fst hRet).symm
  | getHeader | readPending | reset =>
      rw [hKind] at hGate
      exact hGate.elim

theorem gateInv_run
    (hHeader : FdictHeader src)
    (hRun : GateRun cfg src trace s) :
    GateInv src trace s :=
  hRun.invariant (GateInv src)
    (.reading reading_init (fun _ => rfl) rfl rfl)
    (fun _ _ _ _ hInv hStep => hInv.step hHeader hStep)

/-
  The gate is kept just where the caller makes no call of
  `zedc_inflate` before it has offered the dictionary.
-/
theorem gated_iff
    (hHeader : FdictHeader src)
    (hRun : GateRun cfg src trace s) :
    Gated src trace ↔ Waits src trace := by
  constructor
  · intro hGated past l rest args hTrace hOp
    by_contra hWanted
    rw [Bool.not_eq_false] at hWanted
    rcases Run.split hRun hTrace with
      ⟨s₁, s₂, hPast, ⟨⟨hBefore, hStep⟩, _⟩⟩
    cases gateInv_run hHeader hPast with
    | reading _ _ _ hNone =>
        cases hNone.symm.trans hWanted
    | asked hAsked hSame =>
        have hRun₁ := hStep
        rw [← hBefore] at hStep
        rcases hGated past l rest args s₂ hTrace hOp
          (hSame.trans hWanted) hStep with
          ⟨hRc, hNoDdcb, _⟩
        rw [hOp] at hRun₁
        rcases Option.map_eq_some_iff.mp hRun₁ with
          ⟨ret, hCall, hRet⟩
        have hOffer : Asked src (args.offer s₁) :=
          hAsked.congr ⟨rfl, rfl, rfl, rfl⟩
        have hSubmits :=
          (zedcInflate_asked hOffer hCall).2
            ((congrArg Prod.fst hRet).trans hRc)
        rw [hBefore] at hNoDdcb
        cases hSubmits.symm.trans hNoDdcb
  · intro hWaits past l rest args s' hTrace hOp hLocked
    rcases Run.split hRun hTrace with ⟨s₁, _, hPast, _⟩
    have hNone := hWaits past l rest args hTrace hOp
    cases gateInv_run hHeader hPast with
    | reading _ _ hOpen _ => cases hOpen.symm.trans hLocked
    | asked _ hSame =>
        cases hNone.symm.trans (hSame.symm.trans hLocked)

end Gate

/-
  A ZLIB header with FDICT and the DICTID of the dictionary
  61, and behind it a stored block.
-/
def fdictStream : ByteMem := fun i =>
  [0x78, 0xbb, 0x00, 0x62, 0x00, 0x62, 0x01].getD i 0

theorem fdictStream_header : FdictHeader fdictStream :=
  ⟨by decide, by decide, by decide, by decide⟩

/- Call on the whole header, then on the byte behind it. -/
def fdictCall (nextIn : List UInt8) : InflateArgs :=
  ⟨nextIn, 1, .noFlush, ⟨fun _ _ => quietResp⟩⟩

def fdictSetUp : InflStream :=
  zedcInflateInit2 plainConfig .zlib

def fdictAsked : Rc × InflStream :=
  ((InflateOp.inflate
    (fdictCall (fdictStream.window 0 6))).run
      fdictSetUp).getD (.errno, fdictSetUp)

def fdictIgnored : Rc × InflStream :=
  ((InflateOp.inflate
    (fdictCall (fdictStream.window 6 1))).run
      fdictAsked.2).getD (.errno, fdictSetUp)

def fdictLabel : InflateLabel :=
  ⟨fdictSetUp,
    .inflate (fdictCall (fdictStream.window 0 6)), .needDict⟩

def ignoredLabel : InflateLabel :=
  ⟨fdictAsked.2,
    .inflate (fdictCall (fdictStream.window 6 1)), .ok⟩

theorem run_fdictCall :
    GateRun plainConfig fdictStream [fdictLabel]
      fdictAsked.2 :=
  Run.next Run.start ⟨⟨rfl, rfl⟩, rfl⟩

/- The next call goes on to a DDCB. -/
theorem gate_open :
    FdictHeader fdictStream ∧
    GateRun plainConfig fdictStream
        [fdictLabel, ignoredLabel] fdictIgnored.2 ∧
      ¬ Gated fdictStream [fdictLabel, ignoredLabel] := by
  refine ⟨fdictStream_header,
    Run.next run_fdictCall ⟨⟨rfl, rfl⟩, rfl⟩, ?_⟩
  intro hGated
  have hRc :=
    (hGated [fdictLabel] ignoredLabel [] _ _ rfl rfl rfl
      rfl).1
  cases hRc

/- With the dictionary in between nothing is amiss. -/
def fdictSupplied : InflStream :=
  (zedcInflateSetDictionary [0x61] fdictAsked.2).2

def suppliedLabel : InflateLabel :=
  ⟨fdictAsked.2, .setDictionary [0x61], .ok⟩

def resumedLabel : InflateLabel :=
  ⟨fdictSupplied,
    .inflate (fdictCall (fdictStream.window 6 1)), .ok⟩

theorem gated_supplied :
    FdictHeader fdictStream ∧
      (∃ s,
        GateRun plainConfig fdictStream
          [fdictLabel, suppliedLabel, resumedLabel] s) ∧
      Gated fdictStream
        [fdictLabel, suppliedLabel, resumedLabel] := by
  have hSupplied :
      GateRun plainConfig fdictStream
        [fdictLabel, suppliedLabel] fdictSupplied :=
    Run.next run_fdictCall ⟨⟨rfl, rfl⟩, trivial⟩
  have hRun :
      GateRun plainConfig fdictStream
        [fdictLabel, suppliedLabel, resumedLabel]
        (((InflateOp.inflate
          (fdictCall (fdictStream.window 6 1))).run
            fdictSupplied).getD (.errno, fdictSetUp)).2 :=
    Run.next hSupplied ⟨⟨rfl, rfl⟩, rfl⟩
  refine ⟨fdictStream_header, ⟨_, hRun⟩,
    (gated_iff fdictStream_header hRun).mpr ?_⟩
  intro past l rest args hTrace hOp
  rcases past with _ | ⟨l₁, _ | ⟨l₂, _ | ⟨l₃, past⟩⟩⟩
  · rfl
  · cases hTrace
    cases hOp
  · cases hTrace
    have hShort :
        decide ([(0x61 : UInt8)].length ≤ zedcDictLen) =
          true := by
      decide
    have hFits : fits fdictStream [0x61] = true := by decide
    refine (@wanted_append fdictStream [fdictLabel]
      suppliedLabel).trans ?_
    unfold wantedAfter suppliedLabel
    simp only
    rw [hShort, hFits]
    exact Bool.and_false _
  · have hLen := congrArg List.length hTrace
    simp at hLen

end Session
