import GenWqe.Deflate.Ending
import GenWqe.Lib.DeflateFormat

/-
  What the stream that `zedc_deflate` writes means: whatever
  is flushed in between, it is a deflate stream of the input
  that the card has absorbed.

  Key definitions include:
    * `DeflStream.dictionary`, `DeflExchange.absorbed`
    * `Compresses`
    * `Meant`

  Main results:
    * `deflateExecute_saved`
    * `Meant.step`
    * `deflate_decodes`
-/

------------------------------------------------------------
-- Dictionaries
------------------------------------------------------------

namespace Zedc

open Bits BlockBits Rfc1951

/- The dictionary of the page in use. -/
def DeflStream.dictionary (s : DeflStream) : List UInt8 :=
  (s.dict s.wspPage).window s.outDictOffs.toNat
    s.dictLen.toNat

/- The dictionary the card is given. -/
def DeflReq.dictionary (req : DeflReq) : List UInt8 :=
  ByteMem.window req.inDict 0 req.inDictLen.toNat

/- The dictionary the card leaves behind. -/
def DeflResp.dictionary (resp : DeflResp) : List UInt8 :=
  resp.outDict.window resp.outDictOffs.toNat
    resp.outDictUsed.toNat

/- The input that an exchange has absorbed. -/
def DeflExchange.absorbed (ex : DeflExchange) : List UInt8 :=
  ex.req.inBuff.take ex.resp.inpProcessed.toNat

/- The input that a run has absorbed. -/
def absorbedBytes (trace : List DeflateLabel) : List UInt8 :=
  trace.flatMap fun l =>
    l.exchange.elim [] DeflExchange.absorbed

theorem absorbedBytes_concat
    (trace : List DeflateLabel)
    (l : DeflateLabel) :
    absorbedBytes (trace ++ [l]) =
      absorbedBytes trace ++
        l.exchange.elim [] DeflExchange.absorbed := by
  simp [absorbedBytes]

/- The request has the dictionary of the stream. -/
theorem dictionary_deflateRequest
    (flush : Flush) (s : DeflStream) :
    (deflateRequest flush s).dictionary = s.dictionary := by
  unfold DeflReq.dictionary DeflStream.dictionary
    ByteMem.window
  simp [deflateRequest]

/-
  The dictionary is in the page in use, except for a last one
  that need not be saved: all input is absorbed then.
-/
theorem deflateExecute_saved
    {flush : Flush}
    {env : DeflateEnv}
    {s s' : DeflStream}
    {ex : DeflExchange}
    (hExec : deflateExecute flush env s = (some ex, s')) :
    s'.dict s'.wspPage = ex.resp.outDict ∨
      ((flush = .finish ∨ flush = .fullFlush) ∧
        s.availIn = ex.resp.inpProcessed.toNat) := by
  have hPage :
      ∀ (req : DeflReq) (resp : DeflResp) (t : DeflStream),
        req.saveDict = true →
          (deflateSaveDict req resp t).dict
              (deflateSaveDict req resp t).wspPage =
            resp.outDict := by
    intro req resp t hSave
    unfold deflateSaveDict
    rw [if_pos hSave]
    exact if_pos rfl
  have hAvail :
      ∀ (req : DeflReq) (resp : DeflResp) (t : DeflStream),
        (deflateSaveDict req resp t).availIn = t.availIn := by
    intro req resp t
    unfold deflateSaveDict
    split <;> rfl
  unfold deflateExecute at hExec
  simp only at hExec
  split at hExec
  · cases hExec
  · split at hExec
    · rename_i hKept
      cases hExec
      cases hSkip : deflateSkipLastDict flush s with
      | false =>
          left
          apply hPage
          simp [deflateRequest, hSkip]
      | true =>
          right
          rw [hSkip] at hKept
          simp only [DeflResp.absorbed, Bool.not_true,
            Bool.or_false, Bool.and_eq_true, beq_iff_eq]
            at hKept
          have hAll := hKept.1
          rw [hAvail] at hAll
          refine ⟨?_, hAll⟩
          simp only [deflateSkipLastDict, Bool.and_eq_true,
            Bool.or_eq_true, beq_iff_eq] at hSkip
          exact hSkip.1.2
    · split at hExec
      · cases hExec
      · cases hExec
        left
        apply hPage
        rfl

/-
  An accepted exchange was asked with the dictionary of the
  stream, and unless the stream has ended it has left its own
  dictionary, or none behind a full flush.
-/
theorem deflateSubmit_dictionary
    {flush : Flush}
    {env : DeflateEnv}
    {s : DeflStream}
    {ex : DeflExchange}
    (hReady : SubmitReady s)
    (hOk : ¬ (deflateSubmit flush env s).rc.IsNegative)
    (hSome :
      (deflateSubmit flush env s).exchange = some ex) :
    ex.req.dictionary = s.dictionary ∧
      ex.req.inumbits = s.onumbits ∧
      ex.req.inBuff = s.nextIn ∧
      ((deflateSubmit flush env s).strm.eobAdded = false →
        (deflateSubmit flush env s).strm.dictionary =
            ex.resp.dictionary ∨
          (deflateSubmit flush env s).strm.dictionary =
            []) := by
  rcases deflateSubmit_accepted hOk with
    ⟨ex', s₁, s₂, hExec, hResults, hEq⟩
  rw [hEq] at hSome ⊢
  cases hSome
  have hSaved := deflateExecute_saved hExec
  rcases deflateExecute_spec hExec with
    ⟨⟨dict, rfl⟩, hReq⟩
  rcases hReq ex rfl with ⟨_, saveDict, dictLen, hReq⟩
  have hEmpty : s.outFifo.contents = [] := hReady.outFifo
  rcases deflateProcessResults_spec
      (by exact hEmpty) hResults with
    ⟨f, obyte, hSpec, hRoom, _⟩
  refine ⟨?_, ?_, ?_, fun hOpen => ?_⟩
  · rw [hReq]
    exact dictionary_deflateRequest flush s
  · rw [hReq]
    rfl
  · rw [hReq]
    rfl
  · change (deflateFlush flush s₂).eobAdded = false at hOpen
    change (deflateFlush flush s₂).dictionary = _ ∨
      (deflateFlush flush s₂).dictionary = _
    have hInput := inputSide_deflateFlush flush s₂
    rw [hSpec] at hInput
    have hDict : (deflateFlush flush s₂).dict = dict := by
      rw [hSpec]
      exact (congrArg DeflStream.dict hInput :)
    have hPage :
        (deflateFlush flush s₂).wspPage = !s.wspPage := by
      rw [hSpec]
      exact (congrArg DeflStream.wspPage hInput :)
    have hOffs :
        (deflateFlush flush s₂).outDictOffs =
          ex.resp.outDictOffs := by
      rw [hSpec]
      exact (congrArg DeflStream.outDictOffs hInput :)
    have hLen :
        (deflateFlush flush s₂).dictLen =
          if flush = .fullFlush then 0
          else ex.resp.outDictUsed := by
      rw [hSpec]
      exact (congrArg DeflStream.dictLen hInput :)
    unfold DeflStream.dictionary
    rw [hDict, hPage, hOffs, hLen]
    rcases hSaved with hHere | ⟨hFinish | hFull, hAll⟩
    · by_cases hFull : flush = .fullFlush
      · right
        rw [if_pos hFull]
        exact ByteMem.window_zero _ _
      · left
        rw [if_neg hFull]
        unfold DeflResp.dictionary
        rw [← hHere]
    · -- all was absorbed, so that the stream was ended
      exfalso
      have hNone : s₂.nextIn = [] := by
        rw [hSpec]
        have hDrop : s.nextIn.drop
            ex.resp.inpProcessed.toNat = [] := by
          rw [← hAll]
          exact List.drop_length
        exact hDrop
      rw [hFinish, deflateFlush, if_pos hNone,
        eobAdded_deflateFinish] at hOpen
      · cases hOpen
      · rw [hSpec]
        exact Nat.mod_lt _ (by decide)
    · right
      rw [if_pos hFull]
      exact ByteMem.window_zero _ _

------------------------------------------------------------
-- A Card That Compresses
------------------------------------------------------------

/-
  A card that compresses what it absorbs: among the codes of
  an open fixed block, and with a dictionary that in reach is
  the end of what was read so far, its new bits stand for the
  input and leave such a block open. The dictionary it leaves
  is the end of the old one and the input.
-/
structure Compresses
    (dynHuffman : Bool) (ex : DeflExchange) : Prop where
  ibits : PrependsIbits dynHuffman ex
  codes :
    ∀ d : Decoder,
      d.mode = .openFixed false →
      d.offset = ex.req.inumbits →
      lastBytes ex.req.dictionary <:+ d.window →
        ∃ d',
          Reads d (ex.newBits dynHuffman) ex.absorbed d' ∧
            d'.mode = .openFixed false
  dictionary :
    ex.resp.dictionary <:+ ex.req.dictionary ++ ex.absorbed

/- The bits of a run behind the format header. -/
def streamBody
    (s₀ : DeflStream) (trace : List DeflateLabel) :
    List Bool :=
  render fixedHeader
    (streamPieces s₀.dynHuffmanSupported trace)

/- Whole bytes in front stay as they are. -/
theorem render_bitsOf_append
    (bs : List UInt8)
    (bits : List Bool)
    (pieces : List Piece) :
    render (bitsOf bs ++ bits) pieces =
      bitsOf bs ++ render bits pieces := by
  induction pieces generalizing bits with
  | nil => rfl
  | cons piece pieces ih =>
      cases piece with
      | data new =>
          have hRest := ih (bits ++ new)
          rw [← List.append_assoc] at hRest
          exact hRest
      | sync =>
          have hRest := ih (syncMarker bits)
          rw [← syncMarker_bitsOf_append] at hRest
          exact hRest

theorem streamBits_eq
    (s₀ : DeflStream) (trace : List DeflateLabel) :
    streamBits s₀ trace =
      bitsOf (streamHeader s₀ trace) ++
        streamBody s₀ trace :=
  render_bitsOf_append _ _ _

/- What a run has written so far is what it has absorbed. -/
structure Meant
    (s₀ : DeflStream)
    (trace : List DeflateLabel)
    (s : DeflStream)
    (d : Decoder) : Prop where
  reads :
    Reads (.start s₀.dictionary) (streamBody s₀ trace)
      (absorbedBytes trace) d
  mode : d.mode = .openFixed false
  dictionary :
    s.eobAdded = false → lastBytes s.dictionary <:+ d.window

section Step

variable {s₀ s s' s₁ : DeflStream}
variable {trace : List DeflateLabel} {l : DeflateLabel}
variable {d : Decoder} {ex : DeflExchange}

theorem streamBody_concat
    (s₀ : DeflStream)
    (trace : List DeflateLabel)
    (l : DeflateLabel) :
    streamBody s₀ (trace ++ [l]) =
      render (streamBody s₀ trace)
        (l.pieces s₀.dynHuffmanSupported) := by
  unfold streamBody
  rw [streamPieces_concat, render_append]

/- The partial byte has the bits behind the last boundary. -/
theorem Meant.offset
    {header : List UInt8}
    (hMeant : Meant s₀ trace s d)
    (hCarries :
      Carries s₁ (bitsOf header ++ streamBits s₀ trace))
    (hOpen : s₁.eobAdded = false) :
    d.offset = s₁.onumbits := by
  have hBits := congrArg List.length hCarries.emitted_eq
  have hFew := hCarries.onumbits_lt
  have hOffset := hMeant.reads.offset
  have hStart :
      (Decoder.start s₀.dictionary).offset = 0 := rfl
  rw [hOpen, streamBits_eq] at hBits
  simp only [emitted, Bool.false_eq_true, if_false,
    List.length_append, length_bitsOf, List.length_take,
    length_byteBits] at hBits
  omega

/- The bits of an exchange stand for what it has absorbed. -/
theorem Meant.exchange
    (flush : Flush)
    (hMeant : Meant s₀ trace s d)
    (hCard : Compresses s₀.dynHuffmanSupported ex)
    (hOffset : d.offset = ex.req.inumbits)
    (hDictionary :
      lastBytes ex.req.dictionary <:+ d.window) :
    ∃ d',
      Reads (.start s₀.dictionary)
          (render (streamBody s₀ trace)
            (exchangePieces s₀.dynHuffmanSupported flush
              ex))
          (absorbedBytes trace ++ ex.absorbed) d' ∧
        d'.mode = .openFixed false ∧
        lastBytes ex.resp.dictionary <:+ d'.window := by
  rcases hCard.codes d hMeant.mode hOffset hDictionary with
    ⟨d₁, hCodes, hOpen⟩
  have hReads := hMeant.reads.trans hCodes
  have hReach : lastBytes ex.resp.dictionary <:+ d₁.window :=
    hCodes.suffix_window hDictionary hCard.dictionary
  unfold exchangePieces
  cases hMarker : flush.writesMarker with
  | false => exact ⟨d₁, hReads, hOpen, hReach⟩
  | true =>
      rcases reads_syncMarker hReads hOpen with
        ⟨d₂, hMarked, hOpen₂, hSame⟩
      exact ⟨d₂, hMarked, hOpen₂, hSame ▸ hReach⟩

/- A call that makes no request changes no meaning. -/
theorem Meant.prepared
    {bits : List Bool}
    (hMeant : Meant s₀ trace s d)
    (hNone : l.exchange = none)
    (hTo : PrepareTo l.call.env.now bits s s')
    (hEnded : s.eobAdded = true → s'.eobAdded = true) :
    Meant s₀ (trace ++ [l]) s' d := by
  have hPieces : l.pieces s₀.dynHuffmanSupported = [] := by
    simp [DeflateLabel.pieces, hNone]
  have hInput := hTo.inputSide_eq
  have hDict : s'.dict = s.dict :=
    (congrArg DeflStream.dict hInput :)
  have hPage : s'.wspPage = s.wspPage :=
    (congrArg DeflStream.wspPage hInput :)
  have hOffs : s'.outDictOffs = s.outDictOffs :=
    (congrArg DeflStream.outDictOffs hInput :)
  have hLen : s'.dictLen = s.dictLen :=
    (congrArg DeflStream.dictLen hInput :)
  refine ⟨?_, hMeant.mode, fun hOpen => ?_⟩
  · rw [streamBody_concat, hPieces, render_nil,
      absorbedBytes_concat, hNone, Option.elim_none,
      List.append_nil]
    exact hMeant.reads
  · have hSame : s'.dictionary = s.dictionary := by
      unfold DeflStream.dictionary
      rw [hDict, hPage, hOffs, hLen]
    rw [hSame]
    apply hMeant.dictionary
    by_contra hNot
    rw [hEnded (by simpa using hNot)] at hOpen
    cases hOpen

/- The dictionary of a stream that was only prepared. -/
theorem PrepareTo.dictionary
    {now : UInt32}
    {bits : List Bool}
    (hTo : PrepareTo now bits s s') :
    s'.dictionary = s.dictionary := by
  have hInput := hTo.inputSide_eq
  have hDict : s'.dict = s.dict :=
    (congrArg DeflStream.dict hInput :)
  have hPage : s'.wspPage = s.wspPage :=
    (congrArg DeflStream.wspPage hInput :)
  have hOffs : s'.outDictOffs = s.outDictOffs :=
    (congrArg DeflStream.outDictOffs hInput :)
  have hLen : s'.dictLen = s.dictLen :=
    (congrArg DeflStream.dictLen hInput :)
  unfold DeflStream.dictionary
  rw [hDict, hPage, hOffs, hLen]

/- Every call keeps the meaning of the stream. -/
theorem Meant.step
    (hLen : ∀ now, (formatHeader now s₀).length ≤ 255)
    (hIn : InStep s₀ trace s)
    (hMeant : Meant s₀ trace s d)
    (hCard : ∀ ex, l.exchange = some ex →
      Compresses s₀.dynHuffmanSupported ex)
    (hStep : deflateStep s l s') :
    ∃ d', Meant s₀ (trace ++ [l]) s' d' := by
  rcases hStep with ⟨hRet, hOk⟩
  have hOffered :=
    hIn.offer l.call.nextIn l.call.availOut
  have hOfferedMeant :
      Meant s₀ trace
        { s with
          nextIn := l.call.nextIn
          availOut := l.call.availOut } d :=
    ⟨hMeant.reads, hMeant.mode, hMeant.dictionary⟩
  unfold DeflateCall.ret zedcDeflate at hRet
  generalize
    ({ s with
        nextIn := l.call.nextIn
        availOut := l.call.availOut } : DeflStream) = s₁
    at *
  have hFits :
      (headerNow l.call.env.now s₁).length ≤ 255 := by
    rw [hOffered.headerNow_eq]
    split
    · exact hLen _
    · simp
  have hPrepare :=
    hOffered.carries.prepare l.call.flush l.call.env.now
      hOffered.headerPending hFits
  have hEnded :=
    eobAdded_deflatePrepare (s := s₁) l.call.flush
      l.call.env.now
  generalize deflatePrepare l.call.flush l.call.env.now s₁ =
    prepared at *
  rcases prepared with ⟨rc, s₂⟩ | s₂
  · simp only [DeflRet.mk.injEq] at hRet
    rcases hRet with ⟨rfl, rfl, hNone⟩
    rcases hPrepare with hError | ⟨_, hTo⟩
    · rw [hError] at hOk
      exact absurd (by decide) hOk
    · exact ⟨d, hOfferedMeant.prepared hNone.symm hTo
        hEnded⟩
  · rcases hPrepare with ⟨hTo, hReady⟩
    simp only at hRet
    have hNoError :
        ¬ (deflateSubmit l.call.flush l.call.env
          s₂).rc.IsNegative := by
      rw [hRet]
      exact hOk
    rcases hTo.carries.submit hReady hNoError with
      ⟨ex, hSome, _, _⟩
    rcases deflateSubmit_dictionary hReady hNoError hSome with
      ⟨hDictionary, hInumbits, _, hLeft⟩
    have hOpen : s₁.eobAdded = false := by
      by_contra hNot
      have hBoth := hEnded (by simpa using hNot)
      rw [preparedStrm, hReady.eobAdded] at hBoth
      cases hBoth
    have hBefore :
        lastBytes ex.req.dictionary <:+ d.window := by
      rw [hDictionary, hTo.dictionary]
      exact hOfferedMeant.dictionary hOpen
    have hOffset : d.offset = ex.req.inumbits := by
      rw [hInumbits]
      exact hOfferedMeant.offset hTo.carries
        hReady.eobAdded
    rw [hRet] at hSome hLeft
    change l.exchange = some ex at hSome
    rcases hOfferedMeant.exchange l.call.flush
        (hCard ex hSome) hOffset hBefore with
      ⟨d', hReads, hMode, hBehind⟩
    refine ⟨d', ?_, hMode, fun hStill => ?_⟩
    · have hPieces :
          l.pieces s₀.dynHuffmanSupported =
            exchangePieces s₀.dynHuffmanSupported
              l.call.flush ex := by
        simp [DeflateLabel.pieces, hSome]
      rw [streamBody_concat, hPieces, absorbedBytes_concat,
        hSome]
      exact hReads
    · rcases hLeft hStill with hIs | hIs
      · rw [hIs]
        exact hBehind
      · rw [hIs]
        exact (lastBytes_suffix []).trans List.nil_suffix

end Step

/- The meaning of a stream in front of its first call. -/
theorem Meant.start (s₀ : DeflStream) :
    ∃ d, Meant s₀ [] s₀ d := by
  have hHeader := reads_fixedHeader
    (d := .start s₀.dictionary) false rfl
  refine ⟨(Decoder.start s₀.dictionary).after 3
    (.openFixed false, []), hHeader, rfl, fun _ => ?_⟩
  rw [Decoder.after_window_nil, Decoder.start_window]

/- Every run without errors has a meaning. -/
theorem meant_of_run
    {s₀ s : DeflStream}
    {trace : List DeflateLabel}
    (hReady : Ready s₀)
    (hLen : ∀ now, (formatHeader now s₀).length ≤ 255)
    (hRun : Run deflateStep s₀ trace s)
    (hCard : ∀ l ∈ trace, ∀ ex, l.exchange = some ex →
      Compresses s₀.dynHuffmanSupported ex) :
    InStep s₀ trace s ∧ ∃ d, Meant s₀ trace s d :=
  hRun.invariant_of_labels
    (fun trace s =>
      InStep s₀ trace s ∧ ∃ d, Meant s₀ trace s d)
    (fun l => ∀ ex, l.exchange = some ex →
      Compresses s₀.dynHuffmanSupported ex)
    ⟨InStep.start hReady.fresh, Meant.start s₀⟩
    (fun _ _ _ _ hOk hInv hStep => by
      rcases hInv with ⟨hIn, d, hMeant⟩
      exact ⟨hIn.step hLen
          (fun ex hEx => (hOk ex hEx).ibits) hStep,
        hMeant.step hLen hIn hOk hStep⟩)
    hCard

/- A stream that was ended is complete behind its header. -/
theorem Meant.ended
    {s₀ s : DeflStream}
    {trace : List DeflateLabel}
    {d : Decoder}
    (hIn : InStep s₀ trace s)
    (hMeant : Meant s₀ trace s d)
    (hEob : s.eobAdded = true) :
    ∃ body pad d',
      Reads (.start s₀.dictionary) body
          (absorbedBytes trace) d' ∧
        d'.mode = .done ∧ pad.length < 8 ∧
        bitsOf (s.nextOut ++ s.outFifo.contents) =
          bitsOf (streamHeader s₀ trace) ++
            (body ++ pad) ++
              bitsOf (streamTrailer s₀ trace) := by
  have hEmits := hIn.carries.emitted_eq
  rw [hEob, if_pos rfl, emitted, hIn.carries.ended hEob,
    List.take_zero, List.append_nil, streamBits_eq,
    closing_bitsOf_append, hIn.trailer] at hEmits
  rcases reads_closing hMeant.reads hMeant.mode with
    ⟨body, pad, d', hClosing, hPad, hReads, hDone, _⟩
  refine ⟨body, pad, d', hReads, hDone, hPad, ?_⟩
  rw [hEmits, hClosing]

/-
  At every point of a run without errors the stream written so
  far, behind the format header, is a deflate stream of all
  input absorbed so far, whatever was flushed: open for more,
  or behind the end complete with padding and the trailer.
-/
theorem deflate_decodes
    {s₀ s : DeflStream}
    {trace : List DeflateLabel}
    (hReady : Ready s₀)
    (hLen : ∀ now, (formatHeader now s₀).length ≤ 255)
    (hRun : Run deflateStep s₀ trace s)
    (hCard : ∀ l ∈ trace, ∀ ex, l.exchange = some ex →
      Compresses s₀.dynHuffmanSupported ex) :
    ∃ body d,
      Reads (.start s₀.dictionary) body
          (absorbedBytes trace) d ∧
        (s.eobAdded = false →
          d.mode = .openFixed false ∧
            bitsOf (s.nextOut ++ s.outFifo.contents) ++
                (byteBits s.obyte).take s.onumbits =
              bitsOf (streamHeader s₀ trace) ++ body) ∧
        (s.eobAdded = true →
          d.mode = .done ∧
            ∃ pad, pad.length < 8 ∧
              bitsOf (s.nextOut ++ s.outFifo.contents) =
                bitsOf (streamHeader s₀ trace) ++
                  (body ++ pad) ++
                    bitsOf (streamTrailer s₀ trace)) := by
  rcases meant_of_run hReady hLen hRun hCard with
    ⟨hIn, d, hMeant⟩
  cases hEob : s.eobAdded with
  | false =>
      have hEmits := hIn.carries.emitted_eq
      rw [hEob, streamBits_eq] at hEmits
      exact ⟨_, d, hMeant.reads,
        fun _ => ⟨hMeant.mode, hEmits⟩,
        fun hEnd => by cases hEnd⟩
  | true =>
      rcases hMeant.ended hIn hEob with
        ⟨body, pad, d', hReads, hDone, hPad, hEmits⟩
      exact ⟨body, d', hReads, (fun hOpen => by cases hOpen),
        fun _ => ⟨hDone, pad, hPad, hEmits⟩⟩

------------------------------------------------------------
-- One Letter
------------------------------------------------------------

/- The code of a letter behind the header, in eleven bits. -/
def letterResp (req : DeflReq) : DeflResp :=
  { echoResp req with
    onumbits := 3
    obits := fun _ => 0x04
    outBuff := fun _ => 0x4a }

/- The letter is the whole input. -/
def letterCall : DeflateCall :=
  { echoCall with
    flush := .finish
    env := ⟨fun _ req => letterResp req, 0⟩ }

/- Its code in a fixed block. -/
theorem run_letter :
    (symbol fixedLits fixedDists).run
        [true, false, false, true, false, false, false,
          true] =
      some (.literal 0x61, []) := by
  decide +kernel

theorem compresses_letter :
    ∀ l ∈ [letterCall.label echoStream], ∀ ex,
      l.exchange = some ex →
        Compresses echoStream.dynHuffmanSupported ex := by
  intro l hl ex hEx
  rw [List.mem_singleton] at hl
  subst hl
  cases hEx
  refine ⟨?_, fun d hMode _ _ => ?_, List.nil_suffix⟩
  · show List.take 3 _ = List.take 3 _
    decide
  · exact ⟨_, reads_literal hMode (List.cons_ne_nil _ _)
      run_letter, rfl⟩

theorem deflate_decodes_letter :
    ∃ body d,
      Reads (.start echoStream.dictionary) body [0x61] d ∧
        d.mode = .done ∧
        ∃ pad, pad.length < 8 ∧
          bitsOf ((letterCall.ret echoStream).strm.nextOut ++
              (letterCall.ret
                echoStream).strm.outFifo.contents) =
            bitsOf
                (streamHeader echoStream
                  [letterCall.label echoStream]) ++
              (body ++ pad) ++
                bitsOf
                  (streamTrailer echoStream
                    [letterCall.label echoStream]) := by
  have hRun :
      Run deflateStep echoStream
        [letterCall.label echoStream]
        (letterCall.ret echoStream).strm :=
    Run.next Run.start ⟨rfl, by decide⟩
  rcases deflate_decodes
      (Ready.init (DeflStream.zeroed .zlib true))
      (fun _ => by
        show (2 : Nat) ≤ 255
        decide)
      hRun compresses_letter with
    ⟨body, d, hReads, _, hEnd⟩
  exact ⟨body, d, hReads, hEnd (by decide)⟩

end Zedc
