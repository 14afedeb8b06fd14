import GenWqe.Deflate.Compress
import GenWqe.Lib.Runs

/-
  The output bit stream of `zedc_deflate` over whole runs:
  what the caller holds, the FIFO and the partial byte are
  together the format header, an open fixed block, the bits
  of every accepted exchange with a marker for every flush,
  and at the end one closing sequence and the trailer.

  Key definitions include:
    * `Carries`
    * `DeflateCall`, `deflateStep`
    * `streamPieces`, `streamStart`

  Main results:
    * `Carries.prepare`
    * `Carries.submit`
    * `inStep_of_run`
-/

------------------------------------------------------------
-- Carried Bits
------------------------------------------------------------

namespace Zedc

open Bits BlockBits

/- The trailer for the checksums and counts of a stream. -/
def DeflStream.trailer (s : DeflStream) : List UInt8 :=
  formatTrailer s.format s.crc32 s.adler32 s.totalIn

/-
  The stream carries the open bit stream `bits`, closed and
  with its trailer once the end of block was added.
-/
structure Carries (s : DeflStream) (bits : List Bool) :
    Prop where
  onumbits_lt : s.onumbits < 8
  paired : s.eobAdded = s.trailerAdded
  ended : s.eobAdded = true → s.onumbits = 0
  emitted_eq :
    emitted s =
      if s.eobAdded then closing bits ++ bitsOf s.trailer
      else bits

/- Draining the FIFO carries the same bits. -/
theorem Carries.drain
    {s s' : DeflStream}
    {bits : List Bool}
    (hCarries : Carries s bits)
    (hDrained : DrainedTo s s') :
    Carries s' bits := by
  have hEmitted := hDrained.emitted_eq
  rcases hDrained.eq with ⟨out, f, _, _, rfl⟩
  constructor
  · exact hCarries.onumbits_lt
  · exact hCarries.paired
  · exact hCarries.ended
  · rw [hEmitted, hCarries.emitted_eq]
    rfl

/- Offering new buffers changes nothing that is carried. -/
theorem Carries.offer
    {s : DeflStream}
    {bits : List Bool}
    (hCarries : Carries s bits)
    (nextIn : List UInt8)
    (availOut : Nat) :
    Carries
      { s with nextIn := nextIn, availOut := availOut }
      bits := by
  cases hCarries
  constructor <;> assumption

/-
  Finishing keeps what is carried: an open stream becomes the
  closed one, a closed stream is only drained.
-/
theorem Carries.finish
    {s : DeflStream}
    {bits : List Bool}
    (hCarries : Carries s bits)
    (hRoom : s.outFifo.contents.length ≤ 31) :
    Carries (deflateFinish s) bits := by
  refine Carries.drain ?_ (deflateWriteOutFifo_spec _)
  cases hEob : s.eobAdded with
  | true =>
      have hTrailer : s.trailerAdded = true := by
        rw [← hCarries.paired, hEob]
      simpa [deflateWriteEob, deflateAddTrailer, hEob,
        hTrailer] using hCarries
  | false =>
      have hTrailer : s.trailerAdded = false := by
        rw [← hCarries.paired, hEob]
      rcases deflateWriteEob_spec s hCarries.onumbits_lt
          hEob (by omega) with ⟨f, hEq, hContents⟩
      have hLen :
          (eobBytes s.onumbits s.obyte).length = 3 := by
        unfold eobBytes
        split <;> rfl
      rw [hEq]
      rcases deflateAddTrailer_spec
          { s with
            outFifo := f
            onumbits := 0
            eobAdded := true }
          rfl hTrailer
          (by
            simp only [hContents, List.length_append, hLen]
            omega) with ⟨f', hEq', hContents'⟩
      rw [hEq']
      have hOpen := hCarries.emitted_eq
      simp only [hEob, Bool.false_eq_true, if_false]
        at hOpen
      constructor
      · show 0 < 8
        decide
      · rfl
      · intro _
        rfl
      · simp only [emitted, hContents', hContents,
          List.take_zero, List.append_nil, if_true]
        rw [← hOpen, emitted, closing_bitsOf_append,
          ← bitsOf_eobBytes _ hCarries.onumbits_lt]
        simp [DeflStream.trailer]

/- A flush marker behind an open stream. -/
theorem Carries.sync
    {s : DeflStream}
    {bits : List Bool}
    (hCarries : Carries s bits)
    (hOpen : s.eobAdded = false)
    (hRoom : s.outFifo.contents.length ≤ 31) :
    Carries (deflateSyncFlush s) (syncMarker bits) := by
  rcases deflateSyncFlush_spec s (by omega) with
    ⟨f, hEq, hContents⟩
  rw [hEq]
  have hEmitted := hCarries.emitted_eq
  simp only [hOpen, Bool.false_eq_true, if_false]
    at hEmitted
  constructor
  · show 3 < 8
    decide
  · exact hCarries.paired
  · intro hEob
    simp [hOpen] at hEob
  · have hHeader :
        (byteBits hdrBtypeFixed).take 3 = fixedHeader := by
      decide
    have hMarker :
        syncMarker (emitted s) =
          bitsOf (s.nextOut ++ s.outFifo.contents) ++
            (bitsOf (syncBytes s.onumbits s.obyte) ++
              fixedHeader) := by
      unfold emitted
      rw [syncMarker_bitsOf_append, syncMarker,
        ← bitsOf_syncBytes _ hCarries.onumbits_lt]
    simp only [hOpen, Bool.false_eq_true, if_false]
    rw [← hEmitted, hMarker]
    simp [emitted, hContents, hHeader]

------------------------------------------------------------
-- Carried up to the Request
------------------------------------------------------------

/-
  Before the format header is written nothing has gone out,
  or the format has none.
-/
def HeaderPending (s : DeflStream) : Prop :=
  s.headerAdded = false →
    s.format = .defl ∨
      (s.nextOut = [] ∧ s.outFifo.contents = [] ∧
        s.eobAdded = false)

/- The header bytes that the next call puts in front. -/
def headerNow (now : UInt32) (s : DeflStream) :
    List UInt8 :=
  if s.headerAdded then [] else formatHeader now s

/- The header that `zedc_deflate` adds first. -/
theorem Carries.header
    {s s' : DeflStream}
    {bits : List Bool}
    {now : UInt32}
    (hCarries : Carries s bits)
    (hPending : HeaderPending s)
    (hLen : (headerNow now s).length ≤ 255)
    (hEq :
      (if s.headerAdded then (false, s)
        else deflateAddHeader now s) = (false, s')) :
    ∃ f,
      s' =
        { s with
          outFifo := f
          headerAdded :=
            s.headerAdded || s.format != .defl } ∧
      Carries s' (bitsOf (headerNow now s) ++ bits) := by
  cases hAdded : s.headerAdded with
  | true =>
      simp only [hAdded, if_true, Prod.mk.injEq, true_and]
        at hEq
      subst hEq
      refine ⟨s.outFifo, ?_, ?_⟩
      · cases s
        simp_all
      · simpa [headerNow, hAdded] using hCarries
  | false =>
      simp only [hAdded, Bool.false_eq_true, if_false] at hEq
      simp only [headerNow, hAdded, Bool.false_eq_true,
        if_false] at hLen ⊢
      rcases hPending hAdded with hDefl | hUnsent
      · have hSame : s = s' := by
          simpa [deflateAddHeader, hDefl] using hEq
        subst hSame
        refine ⟨s.outFifo, ?_, ?_⟩
        · cases s
          simp_all
        · simpa [formatHeader, hDefl] using hCarries
      · rcases hUnsent with ⟨hNext, hFifo, hEob⟩
        rcases deflateAddHeader_spec now s hFifo hLen
            (by rw [hEq]) with ⟨f, hAdd, hContents⟩
        rw [hEq, hAdded] at hAdd
        refine ⟨f, hAdd, ?_⟩
        have hEmitted := hCarries.emitted_eq
        simp only [hEob, Bool.false_eq_true, if_false]
          at hEmitted
        subst hAdd
        constructor
        · exact hCarries.onumbits_lt
        · exact hCarries.paired
        · exact hCarries.ended
        · simp only [hEob, Bool.false_eq_true, if_false]
          rw [← hEmitted]
          simp [emitted, hContents, hNext, hFifo]

/- The stream without its output side. -/
def DeflStream.inputSide (s : DeflStream) : DeflStream :=
  { s with
    nextOut := []
    availOut := 0
    totalOut := 0
    outFifo := ZedcFifo.fifoInit
    onumbits := 0
    obyte := 0
    eobAdded := false
    trailerAdded := false }

theorem DrainedTo.inputSide_eq
    {s s' : DeflStream} (hDrained : DrainedTo s s') :
    s'.inputSide = s.inputSide := by
  rcases hDrained.eq with ⟨out, f, _, _, rfl⟩
  rfl

@[simp] theorem inputSide_deflateWriteOutFifo
    (s : DeflStream) :
    (deflateWriteOutFifo s).inputSide = s.inputSide :=
  (deflateWriteOutFifo_spec s).inputSide_eq

@[simp] theorem inputSide_deflateWriteEob
    (s : DeflStream) :
    (deflateWriteEob s).inputSide = s.inputSide := by
  unfold deflateWriteEob
  split
  · rfl
  · split <;> rfl

@[simp] theorem inputSide_deflateAddTrailer
    (s : DeflStream) :
    (deflateAddTrailer s).inputSide = s.inputSide := by
  unfold deflateAddTrailer
  split
  · rfl
  · split <;> rfl

@[simp] theorem inputSide_deflateFinish
    (s : DeflStream) :
    (deflateFinish s).inputSide = s.inputSide := by
  simp [deflateFinish]

theorem inputSide_deflateSyncFlush
    (s : DeflStream) :
    (deflateSyncFlush s).inputSide = s.inputSide := by
  simp only [deflateSyncFlush, DeflStream.inputSide]

/- What a call leaves as it is before it makes a request. -/
structure PrepareTo
    (now : UInt32)
    (bits : List Bool)
    (s s' : DeflStream) : Prop where
  carries :
    Carries s' (bitsOf (headerNow now s) ++ bits)
  inputSide_eq :
    s'.inputSide =
      { s.inputSide with
        headerAdded := s.headerAdded || s.format != .defl }

/- Draining goes on from what was prepared. -/
theorem PrepareTo.drain
    {now : UInt32}
    {bits : List Bool}
    {s s' : DeflStream}
    (hTo : PrepareTo now bits s s') :
    PrepareTo now bits s (deflateWriteOutFifo s') := by
  refine ⟨hTo.carries.drain (deflateWriteOutFifo_spec s'),
    ?_⟩
  rw [inputSide_deflateWriteOutFifo, hTo.inputSide_eq]

/- So does finishing, from a drained FIFO. -/
theorem PrepareTo.finish
    {now : UInt32}
    {bits : List Bool}
    {s s' : DeflStream}
    (hTo : PrepareTo now bits s s')
    (hRoom : s'.outFifo.contents.length ≤ 31) :
    PrepareTo now bits s (deflateFinish s') := by
  refine ⟨hTo.carries.finish hRoom, ?_⟩
  rw [inputSide_deflateFinish, hTo.inputSide_eq]

/-
  What holds where a request is made: the FIFO is empty, the
  stream is open, there is input and output space.
-/
structure SubmitReady (s : DeflStream) : Prop where
  outFifo : s.outFifo.contents = []
  eobAdded : s.eobAdded = false
  nextIn : s.nextIn ≠ []
  availOut : s.availOut ≠ 0

/- What the part of a call before the request results in. -/
def PrepareResult
    (now : UInt32)
    (bits : List Bool)
    (s : DeflStream) :
    Sum (Rc × DeflStream) DeflStream → Prop
  | .inl (rc, s') =>
      rc = .streamError ∨
        (¬ rc.IsNegative ∧ PrepareTo now bits s s')
  | .inr s' => PrepareTo now bits s s' ∧ SubmitReady s'

/- A stream without input leaves by one of the exits. -/
theorem deflateExits_of_nextIn
    {now : UInt32}
    {bits : List Bool}
    {s s' : DeflStream}
    (hTo : PrepareTo now bits s s')
    (hInput : s'.nextIn = []) :
    PrepareResult now bits s (deflateExits s') := by
  unfold deflateExits
  by_cases hDone : deflateDone s'
  · rw [if_pos hDone]
    exact Or.inr ⟨by decide, hTo⟩
  · rw [if_neg hDone]
    by_cases hFull : s'.availOut = 0
    · rw [if_pos hFull]
      exact Or.inr ⟨by decide, hTo⟩
    · rw [if_neg hFull, if_pos hInput]
      exact Or.inr ⟨by decide, hTo⟩

theorem PrepareTo.drained
    {now : UInt32}
    {bits : List Bool}
    {s s' : DeflStream}
    (flush : Flush)
    (hTo : PrepareTo now bits s s')
    (hDrained :
      s'.availOut = 0 ∨ s'.outFifo.contents = []) :
    PrepareResult now bits s
      (deflatePrepareDrained flush s') := by
  unfold deflatePrepareDrained
  by_cases hFull : s'.availOut = 0
  · rw [if_pos hFull]
    exact Or.inr ⟨by decide, hTo⟩
  · have hEmpty : s'.outFifo.contents = [] :=
      hDrained.resolve_left hFull
    rw [if_neg hFull]
    by_cases hFinish : flush = .finish ∧ s'.nextIn = []
    · rw [if_pos hFinish]
      apply deflateExits_of_nextIn
        (hTo.finish (by simp [hEmpty]))
      have hInput :
          (deflateFinish s').nextIn = s'.nextIn :=
        (congrArg DeflStream.nextIn
          (inputSide_deflateFinish s') :)
      rw [hInput, hFinish.2]
    · rw [if_neg hFinish]
      by_cases hInput : s'.nextIn = []
      · exact deflateExits_of_nextIn hTo hInput
      · unfold deflateExits
        by_cases hDone : deflateDone s'
        · rw [if_pos hDone]
          exact Or.inr ⟨by decide, hTo⟩
        · rw [if_neg hDone, if_neg hFull, if_neg hInput]
          refine ⟨hTo, hEmpty, ?_, hInput, hFull⟩
          have hPaired := hTo.carries.paired
          have hFifo := (ZedcFifo.fifoEmpty_iff _).mpr hEmpty
          simpa [deflateDone, ← hPaired, hFifo] using hDone

/-
  Up to the request a call puts the header in front, ends the
  stream where asked to, and otherwise moves bytes.
-/
theorem Carries.prepare
    {s : DeflStream}
    {bits : List Bool}
    (flush : Flush)
    (now : UInt32)
    (hCarries : Carries s bits)
    (hPending : HeaderPending s)
    (hLen : (headerNow now s).length ≤ 255) :
    PrepareResult now bits s
      (deflatePrepare flush now s) := by
  unfold deflatePrepare
  generalize hAdd :
    (if s.headerAdded then (false, s)
      else deflateAddHeader now s) = added
  rcases added with ⟨err, s'⟩
  cases err with
  | true => exact Or.inl rfl
  | false =>
      rcases hCarries.header hPending hLen hAdd with
        ⟨f, hEq, hBits⟩
      have hTo : PrepareTo now bits s s' := by
        refine ⟨hBits, ?_⟩
        rw [hEq]
        rfl
      exact hTo.drain.drained flush
        (deflateWriteOutFifo_spec s').full

------------------------------------------------------------
-- Carried through the Request
------------------------------------------------------------

/- The flush values that write a marker. -/
def Flush.writesMarker : Flush → Bool
  | .syncFlush | .partialFlush | .fullFlush => true
  | .noFlush | .finish | .block | .other _ => false

/-
  The accelerator puts the bits of the partial byte it was
  given in front of its output.
-/
def PrependsIbits
    (dynHuffman : Bool) (ex : DeflExchange) : Prop :=
  (ex.resp.outBits dynHuffman).take ex.req.inumbits =
    (byteBits ex.req.ibits).take ex.req.inumbits

/- The bits of a response that are new. -/
def DeflExchange.newBits
    (dynHuffman : Bool) (ex : DeflExchange) : List Bool :=
  (ex.resp.outBits dynHuffman).drop ex.req.inumbits

/- What an accepted exchange adds under a flush value. -/
def exchangePieces
    (dynHuffman : Bool)
    (flush : Flush)
    (ex : DeflExchange) : List Piece :=
  .data (ex.newBits dynHuffman) ::
    (if flush.writesMarker then [.sync] else [])

/- Taking the results over appends the new bits. -/
theorem Carries.results
    {s s' : DeflStream}
    {bits : List Bool}
    {resp : DeflResp}
    (hCarries : Carries s bits)
    (hOpen : s.eobAdded = false)
    (hEmpty : s.outFifo.contents = [])
    (hPrepends :
      (resp.outBits s.dynHuffmanSupported).take
          s.onumbits =
        (byteBits s.obyte).take s.onumbits)
    (hOk : deflateProcessResults resp s = (.ok, s')) :
    Carries s'
      (bits ++
        (resp.outBits s.dynHuffmanSupported).drop
          s.onumbits) := by
  rcases deflateProcessResults_spec hEmpty hOk with
    ⟨f, obyte, rfl, _, hBits⟩
  have hEmitted := hCarries.emitted_eq
  simp only [hOpen, Bool.false_eq_true, if_false]
    at hEmitted
  have hAll :
      bits ++
          (resp.outBits s.dynHuffmanSupported).drop
            s.onumbits =
        bitsOf s.nextOut ++
          resp.outBits s.dynHuffmanSupported := by
    rw [← hEmitted, emitted, hEmpty, List.append_nil,
      List.append_assoc, ← hPrepends, List.take_append_drop]
  constructor
  · exact Nat.mod_lt _ (by decide)
  · exact hCarries.paired
  · intro hEob
    simp [hOpen] at hEob
  · simp only [hOpen, Bool.false_eq_true, if_false]
    rw [hAll, DeflResp.outBits, ← hBits]
    simp [emitted]

/- The flush value asks for a marker, the end, or nothing. -/
theorem Carries.flush
    {s : DeflStream}
    {bits : List Bool}
    (flush : Flush)
    (hCarries : Carries s bits)
    (hOpen : s.eobAdded = false)
    (hRoom : s.outFifo.contents.length ≤ 31) :
    Carries (deflateFlush flush s)
      (if flush.writesMarker then syncMarker bits
        else bits) := by
  have hMarker :=
    (hCarries.sync hOpen hRoom).drain
      (deflateWriteOutFifo_spec _)
  cases flush with
  | finish =>
      simp only [deflateFlush, Flush.writesMarker,
        Bool.false_eq_true, if_false]
      split
      · exact hCarries.finish hRoom
      · exact hCarries
  | syncFlush => exact hMarker
  | partialFlush => exact hMarker
  | fullFlush =>
      rcases hMarker with ⟨hBits, hPaired, hEnded, hEq⟩
      exact ⟨hBits, hPaired, hEnded, hEq⟩
  | noFlush => exact hCarries
  | block => exact hCarries
  | other value => exact hCarries

/- A flush touches nothing of the input side but `dict_len`. -/
theorem inputSide_deflateFlush
    (flush : Flush) (s : DeflStream) :
    (deflateFlush flush s).inputSide =
      { s.inputSide with
        dictLen :=
          if flush = .fullFlush then 0 else s.dictLen } := by
  have hMarker :
      (deflateWriteOutFifo
        (deflateSyncFlush s)).inputSide = s.inputSide := by
    rw [inputSide_deflateWriteOutFifo,
      inputSide_deflateSyncFlush]
  cases flush with
  | finish =>
      simp only [deflateFlush]
      split
      · exact inputSide_deflateFinish s
      · rfl
  | syncFlush => exact hMarker
  | partialFlush => exact hMarker
  | fullFlush =>
      rw [← hMarker]
      rfl
  | noFlush => rfl
  | block => rfl
  | other value => rfl

/- The input side behind an accepted exchange. -/
def acceptedInput
    (flush : Flush)
    (ex : DeflExchange)
    (s s' : DeflStream) : DeflStream :=
  { s.inputSide with
    wspPage := !s.wspPage
    dict := s'.dict
    crc32 := ex.resp.outCrc32
    adler32 := ex.resp.outAdler32
    dictLen :=
      if flush = .fullFlush then 0 else ex.resp.outDictUsed
    outDictOffs := ex.resp.outDictOffs
    nextIn := s.nextIn.drop ex.resp.inpProcessed.toNat
    totalIn := s.totalIn + ex.resp.inpProcessed.toNat }

/-
  A request that is not answered with an error carries the
  bits of its exchange and the marker of its flush value.
-/
theorem Carries.submit
    {s : DeflStream}
    {bits : List Bool}
    {flush : Flush}
    {env : DeflateEnv}
    (hCarries : Carries s bits)
    (hReady : SubmitReady s)
    (hOk : ¬ (deflateSubmit flush env s).rc.IsNegative) :
    ∃ ex,
      (deflateSubmit flush env s).exchange = some ex ∧
      (deflateSubmit flush env s).strm.inputSide =
        acceptedInput flush ex s
          (deflateSubmit flush env s).strm ∧
      (PrependsIbits s.dynHuffmanSupported ex →
        Carries (deflateSubmit flush env s).strm
          (render bits
            (exchangePieces s.dynHuffmanSupported flush
              ex))) := by
  rcases deflateSubmit_accepted hOk with
    ⟨ex, s₁, s₂, hExec, hResults, hEq⟩
  rcases deflateExecute_spec hExec with
    ⟨⟨dict, rfl⟩, hReq⟩
  rcases hReq ex rfl with ⟨_, saveDict, dictLen, hReq⟩
  have hEmpty : s.outFifo.contents = [] := hReady.outFifo
  rcases deflateProcessResults_spec
      (by exact hEmpty) hResults with
    ⟨f, obyte, hSpec, hRoom, _⟩
  rw [hEq]
  refine ⟨ex, rfl, ?_, ?_⟩
  · have hDict :
        (deflateFlush flush s₂).dict = s₂.dict :=
      (congrArg DeflStream.dict
        (inputSide_deflateFlush flush s₂) :)
    show (deflateFlush flush s₂).inputSide =
      acceptedInput flush ex s (deflateFlush flush s₂)
    rw [inputSide_deflateFlush, acceptedInput, hDict, hSpec]
    rfl
  · intro hPrepends
    have hTaken :
        Carries
          (deflateTakeAsv ex.resp
            { s with wspPage := !s.wspPage, dict := dict })
          bits := by
      have hEmitted := hCarries.emitted_eq
      constructor
      · exact hCarries.onumbits_lt
      · exact hCarries.paired
      · exact hCarries.ended
      · simp only [deflateTakeAsv, hReady.eobAdded,
          Bool.false_eq_true, if_false] at hEmitted ⊢
        exact hEmitted
    have hPrefix :
        (ex.resp.outBits s.dynHuffmanSupported).take
            s.onumbits =
          (byteBits s.obyte).take s.onumbits := by
      simpa [PrependsIbits, hReq, deflateRequest]
        using hPrepends
    have hBits := hTaken.results hReady.eobAdded hEmpty
      hPrefix hResults
    have hOpen : s₂.eobAdded = false := by
      rw [hSpec]
      exact hReady.eobAdded
    have hFlush := hBits.flush flush hOpen (by
      rw [hSpec]
      exact hRoom)
    have hNew :
        ex.newBits s.dynHuffmanSupported =
          (ex.resp.outBits s.dynHuffmanSupported).drop
            s.onumbits := by
      simp [DeflExchange.newBits, hReq, deflateRequest]
    have hPieces :
        render bits
            (exchangePieces s.dynHuffmanSupported flush
              ex) =
          if flush.writesMarker then
            syncMarker
              (bits ++ ex.newBits s.dynHuffmanSupported)
          else bits ++ ex.newBits s.dynHuffmanSupported := by
      unfold exchangePieces render
      split <;> rfl
    rw [hPieces, hNew]
    exact hFlush

------------------------------------------------------------
-- Runs
------------------------------------------------------------

/- The buffers, flush value and surroundings of one call. -/
structure DeflateCall where
  nextIn : List UInt8
  availOut : Nat
  flush : Flush
  env : DeflateEnv

/- A call with its return value and accepted exchange. -/
structure DeflateLabel where
  call : DeflateCall
  rc : Rc
  exchange : Option DeflExchange

/- The call of `zedc_deflate` on the buffers offered. -/
def DeflateCall.ret (c : DeflateCall) (s : DeflStream) :
    DeflRet :=
  zedcDeflate c.flush c.env
    { s with nextIn := c.nextIn, availOut := c.availOut }

/- The label of a call made on a stream. -/
def DeflateCall.label
    (c : DeflateCall) (s : DeflStream) : DeflateLabel :=
  ⟨c, (c.ret s).rc, (c.ret s).exchange⟩

/- One call that reports no error. -/
def deflateStep
    (s : DeflStream)
    (l : DeflateLabel)
    (s' : DeflStream) : Prop :=
  l.call.ret s = ⟨l.rc, s', l.exchange⟩ ∧
    ¬ l.rc.IsNegative

/- What the exchange of a call adds to the stream. -/
def DeflateLabel.pieces
    (dynHuffman : Bool) (l : DeflateLabel) : List Piece :=
  match l.exchange with
  | none => []
  | some ex => exchangePieces dynHuffman l.call.flush ex

/- The data and markers of a run, in order. -/
def streamPieces
    (dynHuffman : Bool)
    (trace : List DeflateLabel) : List Piece :=
  trace.flatMap (DeflateLabel.pieces dynHuffman)

/- The format header, which the first call writes. -/
def streamHeader
    (s₀ : DeflStream) (trace : List DeflateLabel) :
    List UInt8 :=
  match trace with
  | [] => []
  | l :: _ => formatHeader l.call.env.now s₀

/- The open bit stream of a run. -/
def streamBits
    (s₀ : DeflStream) (trace : List DeflateLabel) :
    List Bool :=
  render (bitsOf (streamHeader s₀ trace) ++ fixedHeader)
    (streamPieces s₀.dynHuffmanSupported trace)

/- The value that the last exchange of a run reported. -/
def lastReported
    {α : Type*}
    (field : DeflResp → α)
    (start : α)
    (trace : List DeflateLabel) : α :=
  trace.foldl
    (fun value l =>
      match l.exchange with
      | none => value
      | some ex => field ex.resp)
    start

/- The number of input bytes that a run has absorbed. -/
def absorbedInput (trace : List DeflateLabel) : Nat :=
  (trace.map (fun l =>
    match l.exchange with
    | none => 0
    | some ex => ex.resp.inpProcessed.toNat)).sum

/- The trailer that belongs to the exchanges of a run. -/
def streamTrailer
    (s₀ : DeflStream) (trace : List DeflateLabel) :
    List UInt8 :=
  formatTrailer s₀.format
    (lastReported DeflResp.outCrc32 0 trace)
    (lastReported DeflResp.outAdler32 1 trace)
    (absorbedInput trace)

/- What ties a stream to the run that led to it. -/
structure InStep
    (s₀ : DeflStream)
    (trace : List DeflateLabel)
    (s : DeflStream) : Prop where
  carries : Carries s (streamBits s₀ trace)
  format : s.format = s₀.format
  dynHuffman :
    s.dynHuffmanSupported = s₀.dynHuffmanSupported
  crc32 : s.crc32 = lastReported DeflResp.outCrc32 0 trace
  adler32 :
    s.adler32 = lastReported DeflResp.outAdler32 1 trace
  totalIn : s.totalIn = absorbedInput trace
  first : trace = [] →
    Fresh s ∧ ∀ now, formatHeader now s = formatHeader now s₀
  header : trace ≠ [] →
    s.headerAdded = false → s.format = .defl

theorem streamPieces_concat
    (dynHuffman : Bool)
    (trace : List DeflateLabel)
    (l : DeflateLabel) :
    streamPieces dynHuffman (trace ++ [l]) =
      streamPieces dynHuffman trace ++
        l.pieces dynHuffman := by
  simp [streamPieces]

theorem lastReported_concat
    {α : Type*}
    (field : DeflResp → α)
    (start : α)
    (trace : List DeflateLabel)
    (l : DeflateLabel) :
    lastReported field start (trace ++ [l]) =
      match l.exchange with
      | none => lastReported field start trace
      | some ex => field ex.resp := by
  simp [lastReported]

theorem absorbedInput_concat
    (trace : List DeflateLabel)
    (l : DeflateLabel) :
    absorbedInput (trace ++ [l]) =
      absorbedInput trace +
        match l.exchange with
        | none => 0
        | some ex => ex.resp.inpProcessed.toNat := by
  simp [absorbedInput]

theorem InStep.start
    {s₀ : DeflStream} (hFresh : Fresh s₀) :
    InStep s₀ [] s₀ := by
  have hEob := hFresh.eobAdded
  refine ⟨⟨?_, ?_, ?_, ?_⟩, rfl, rfl, hFresh.crc32,
    hFresh.adler32, hFresh.totalIn,
    fun _ => ⟨hFresh, fun _ => rfl⟩, ?_⟩
  · rw [hFresh.onumbits]
    decide
  · rw [hEob, hFresh.trailerAdded]
  · intro hTrue
    simp [hEob] at hTrue
  · have hBits :
        (byteBits hdrBtypeFixed).take 3 = fixedHeader := by
      decide
    simp [emitted, hFresh.outFifo, hFresh.nextOut,
      hFresh.onumbits, hFresh.obyte, hEob, hBits,
      streamBits, streamHeader, streamPieces]
  · intro hNe
    exact absurd rfl hNe

/- Offering new buffers keeps a stream in step. -/
theorem InStep.offer
    {s₀ s : DeflStream}
    {trace : List DeflateLabel}
    (hIn : InStep s₀ trace s)
    (nextIn : List UInt8)
    (availOut : Nat) :
    InStep s₀ trace
      { s with nextIn := nextIn, availOut := availOut } := by
  rcases hIn with
    ⟨hCarries, hFormat, hDyn, hCrc, hAdler, hTotal, hFirst,
      hHeader⟩
  refine ⟨hCarries.offer nextIn availOut, hFormat, hDyn,
    hCrc, hAdler, hTotal, ?_, hHeader⟩
  intro hTrace
  rcases hFirst hTrace with ⟨hFresh, hSame⟩
  refine ⟨?_, hSame⟩
  cases hFresh
  constructor <;> assumption

/- Only the first call of a run writes a header. -/
theorem InStep.headerNow_eq
    {s₀ s : DeflStream}
    {trace : List DeflateLabel}
    (hIn : InStep s₀ trace s)
    (now : UInt32) :
    headerNow now s =
      if trace = [] then formatHeader now s₀ else [] := by
  by_cases hTrace : trace = []
  · rcases hIn.first hTrace with ⟨hFresh, hSame⟩
    rw [if_pos hTrace, ← hSame]
    simp [headerNow, hFresh.headerAdded]
  · rw [if_neg hTrace]
    unfold headerNow
    split
    · rfl
    · rename_i hAdded
      have hDefl :=
        hIn.header hTrace (by simpa using hAdded)
      simp [formatHeader, hDefl]

/-
  The header of the next call in front of what is carried is
  the header of the longer run.
-/
theorem InStep.headerNow_bits
    {s₀ s : DeflStream}
    {trace : List DeflateLabel}
    (hIn : InStep s₀ trace s)
    (l : DeflateLabel) :
    bitsOf (headerNow l.call.env.now s) ++
        streamBits s₀ trace =
      render
        (bitsOf (streamHeader s₀ (trace ++ [l])) ++
          fixedHeader)
        (streamPieces s₀.dynHuffmanSupported trace) := by
  rw [hIn.headerNow_eq]
  cases trace with
  | nil => simp [streamBits, streamHeader, streamPieces]
  | cons first rest => rfl

theorem streamBits_concat
    (s₀ : DeflStream)
    (trace : List DeflateLabel)
    (l : DeflateLabel) :
    streamBits s₀ (trace ++ [l]) =
      render
        (render
          (bitsOf (streamHeader s₀ (trace ++ [l])) ++
            fixedHeader)
          (streamPieces s₀.dynHuffmanSupported trace))
        (l.pieces s₀.dynHuffmanSupported) := by
  rw [streamBits, streamPieces_concat, render_append]

/- Before the first header nothing has gone out. -/
theorem InStep.headerPending
    {s₀ s : DeflStream}
    {trace : List DeflateLabel}
    (hIn : InStep s₀ trace s) :
    HeaderPending s := by
  intro hAdded
  by_cases hTrace : trace = []
  · rcases hIn.first hTrace with ⟨hFresh, _⟩
    exact Or.inr
      ⟨hFresh.nextOut, hFresh.outFifo, hFresh.eobAdded⟩
  · exact Or.inl (hIn.header hTrace hAdded)

/- The exits before a request keep the run in step. -/
theorem InStep.prepared
    {s₀ s s' : DeflStream}
    {trace : List DeflateLabel}
    {l : DeflateLabel}
    (hIn : InStep s₀ trace s)
    (hNone : l.exchange = none)
    (hTo :
      PrepareTo l.call.env.now (streamBits s₀ trace) s s') :
    InStep s₀ (trace ++ [l]) s' := by
  have hInput := hTo.inputSide_eq
  have hPieces :
      l.pieces s₀.dynHuffmanSupported = [] := by
    simp [DeflateLabel.pieces, hNone]
  have hFormat : s'.format = s.format :=
    (congrArg DeflStream.format hInput :)
  refine ⟨?_, ?_, ?_, ?_, ?_, ?_, ?_, ?_⟩
  · rw [streamBits_concat, hPieces, render_nil,
      ← hIn.headerNow_bits l]
    exact hTo.carries
  · rw [hFormat, hIn.format]
  · rw [← hIn.dynHuffman]
    exact (congrArg DeflStream.dynHuffmanSupported hInput :)
  · rw [lastReported_concat, hNone, ← hIn.crc32]
    exact (congrArg DeflStream.crc32 hInput :)
  · rw [lastReported_concat, hNone, ← hIn.adler32]
    exact (congrArg DeflStream.adler32 hInput :)
  · rw [absorbedInput_concat, hNone, ← hIn.totalIn]
    exact (congrArg DeflStream.totalIn hInput :)
  · intro hTrace
    simp at hTrace
  · intro _ hAdded
    have hHeader :
        s'.headerAdded =
          (s.headerAdded || s.format != .defl) :=
      (congrArg DeflStream.headerAdded hInput :)
    rw [hFormat]
    rw [hHeader] at hAdded
    simpa using (Bool.or_eq_false_iff.mp hAdded).2

/- An accepted exchange keeps the run in step. -/
theorem InStep.submitted
    {s₀ s s₁ s' : DeflStream}
    {trace : List DeflateLabel}
    {l : DeflateLabel}
    {ex : DeflExchange}
    (hIn : InStep s₀ trace s)
    (hSome : l.exchange = some ex)
    (hTo :
      PrepareTo l.call.env.now (streamBits s₀ trace) s s₁)
    (hInput :
      s'.inputSide = acceptedInput l.call.flush ex s₁ s')
    (hCarries :
      Carries s'
        (render
          (bitsOf (headerNow l.call.env.now s) ++
            streamBits s₀ trace)
          (exchangePieces s₀.dynHuffmanSupported
            l.call.flush ex))) :
    InStep s₀ (trace ++ [l]) s' := by
  have hInput₁ := hTo.inputSide_eq
  have hPieces :
      l.pieces s₀.dynHuffmanSupported =
        exchangePieces s₀.dynHuffmanSupported l.call.flush
          ex := by
    simp [DeflateLabel.pieces, hSome]
  have hFormat : s'.format = s.format :=
    (congrArg DeflStream.format hInput :).trans
      (congrArg DeflStream.format hInput₁ :)
  have hTotal : s₁.totalIn = s.totalIn :=
    (congrArg DeflStream.totalIn hInput₁ :)
  refine ⟨?_, ?_, ?_, ?_, ?_, ?_, ?_, ?_⟩
  · rw [streamBits_concat, hPieces, ← hIn.headerNow_bits l]
    exact hCarries
  · rw [hFormat, hIn.format]
  · rw [← hIn.dynHuffman]
    exact
      (congrArg DeflStream.dynHuffmanSupported
        hInput :).trans
      (congrArg DeflStream.dynHuffmanSupported hInput₁ :)
  · rw [lastReported_concat, hSome]
    exact (congrArg DeflStream.crc32 hInput :)
  · rw [lastReported_concat, hSome]
    exact (congrArg DeflStream.adler32 hInput :)
  · rw [absorbedInput_concat, hSome, ← hIn.totalIn,
      ← hTotal]
    exact (congrArg DeflStream.totalIn hInput :)
  · intro hTrace
    simp at hTrace
  · intro _ hAdded
    have hHeader : s'.headerAdded = s₁.headerAdded :=
      (congrArg DeflStream.headerAdded hInput :)
    have hHeader₁ :
        s₁.headerAdded =
          (s.headerAdded || s.format != .defl) :=
      (congrArg DeflStream.headerAdded hInput₁ :)
    rw [hFormat]
    rw [hHeader, hHeader₁] at hAdded
    simpa using (Bool.or_eq_false_iff.mp hAdded).2

/- A call in step with its run stays in step. -/
theorem InStep.step
    {s₀ s s' : DeflStream}
    {trace : List DeflateLabel}
    {l : DeflateLabel}
    (hLen : ∀ now, (formatHeader now s₀).length ≤ 255)
    (hIn : InStep s₀ trace s)
    (hHonest : ∀ ex, l.exchange = some ex →
      PrependsIbits s₀.dynHuffmanSupported ex)
    (hStep : deflateStep s l s') :
    InStep s₀ (trace ++ [l]) s' := by
  rcases hStep with ⟨hRet, hOk⟩
  have hOffered :=
    hIn.offer l.call.nextIn l.call.availOut
  unfold DeflateCall.ret zedcDeflate at hRet
  generalize
    ({ s with
        nextIn := l.call.nextIn
        availOut := l.call.availOut } : DeflStream) = s₁
    at *
  have hFits :
      (headerNow l.call.env.now s₁).length ≤ 255 := by
    rw [hOffered.headerNow_eq]
    split
    · exact hLen _
    · simp
  have hPrepare :=
    hOffered.carries.prepare l.call.flush l.call.env.now
      hOffered.headerPending hFits
  generalize deflatePrepare l.call.flush l.call.env.now s₁ =
    prepared at *
  rcases prepared with ⟨rc, s₂⟩ | s₂
  · simp only [DeflRet.mk.injEq] at hRet
    rcases hRet with ⟨rfl, rfl, hNone⟩
    rcases hPrepare with hError | ⟨_, hTo⟩
    · rw [hError] at hOk
      exact absurd (by decide) hOk
    · exact hOffered.prepared hNone.symm hTo
  · rcases hPrepare with ⟨hTo, hReady⟩
    simp only at hRet
    have hDyn :
        s₂.dynHuffmanSupported = s₀.dynHuffmanSupported :=
      (congrArg DeflStream.dynHuffmanSupported
        hTo.inputSide_eq :).trans hOffered.dynHuffman
    have hNoError :
        ¬ (deflateSubmit l.call.flush l.call.env
          s₂).rc.IsNegative := by
      rw [hRet]
      exact hOk
    rcases hTo.carries.submit hReady hNoError with
      ⟨ex, hSome, hInput, hCarries⟩
    rw [hRet] at hSome hInput hCarries
    rw [hDyn] at hCarries
    exact hOffered.submitted hSome hTo hInput
      (hCarries (hHonest ex hSome))

/- Every run keeps in step with the stream it started on. -/
theorem inStep_of_run
    {s₀ s : DeflStream}
    {trace : List DeflateLabel}
    (hFresh : Fresh s₀)
    (hLen : ∀ now, (formatHeader now s₀).length ≤ 255)
    (hRun : Run deflateStep s₀ trace s)
    (hHonest : ∀ l ∈ trace, ∀ ex, l.exchange = some ex →
      PrependsIbits s₀.dynHuffmanSupported ex) :
    InStep s₀ trace s :=
  hRun.invariant_of_labels (InStep s₀)
    (fun l => ∀ ex, l.exchange = some ex →
      PrependsIbits s₀.dynHuffmanSupported ex)
    (InStep.start hFresh)
    (fun _ _ _ _ hOk hIn hStep => hIn.step hLen hOk hStep)
    hHonest

/-
  A card that absorbs all input and puts out one byte, with
  the partial byte it was given in front.
-/
def echoResp (req : DeflReq) : DeflResp where
  rc := 0
  retc := ddcbRetcComplete
  outDictUsed := 0
  onumbits := 0
  outCrc32 := 0
  outAdler32 := 1
  inpProcessed := UInt32.ofNat req.inBuff.length
  outpReturned := 1
  obits := fun _ => 0
  outDictOffs := 0
  obitsExtra := fun _ => 0
  outBuff := fun _ => req.ibits
  outDict := fun _ => 0

/- A flush of one byte on a card of the newer kind. -/
def echoCall : DeflateCall where
  nextIn := [0x61]
  availOut := 64
  flush := .syncFlush
  env := ⟨fun _ req => echoResp req, 0⟩

/- The ZLIB stream the call is made on. -/
def echoStream : DeflStream :=
  deflateInitState (DeflStream.zeroed .zlib true)

end Zedc
