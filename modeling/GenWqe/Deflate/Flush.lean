import GenWqe.Deflate.Emission

/-
  When a flush call of `zedc_deflate` makes all input
  decodable: the bytes given out end with a flush marker
  behind the last data bit. A call that brings no input exits
  before the marker is written, so that it depends on what
  the stream ended with already.

  Key definitions include:
    * `FlushComplete`
    * `EndsWithMarker`

  Main results:
    * `Carries.marker`
    * `InStep.marker_call`
    * `flushComplete_iff`
-/

------------------------------------------------------------
-- Completeness
------------------------------------------------------------

namespace Zedc

open Bits BlockBits

/-
  All data of a run has been given out behind a flush marker
  on a byte boundary; of the next block there is only the
  header. After a full flush the next request carries no
  dictionary.
-/
structure FlushComplete
    (s₀ : DeflStream)
    (trace : List DeflateLabel)
    (flush : Flush)
    (s : DeflStream) : Prop where
  outFifo : s.outFifo.contents = []
  marker :
    ∃ pieces,
      streamPieces s₀.dynHuffmanSupported trace =
        pieces ++ [.sync] ∧
      bitsOf s.nextOut =
        flushed
          (render
            (bitsOf (streamHeader s₀ trace) ++ fixedHeader)
            pieces)
  obyte :
    (byteBits s.obyte).take s.onumbits = fixedHeader
  dictLen : flush = .fullFlush → s.dictLen = 0

/-
  The stream is not finished and already ends with a marker,
  and for a full flush the dictionary is empty already.
-/
def EndsWithMarker
    (s₀ : DeflStream)
    (trace : List DeflateLabel)
    (flush : Flush)
    (s : DeflStream) : Prop :=
  s.eobAdded = false ∧
    (streamPieces s₀.dynHuffmanSupported trace).getLast? =
      some .sync ∧
    (flush = .fullFlush → s.dictLen = 0)

/- With the FIFO drained a carried marker has gone out. -/
theorem Carries.marker
    {s : DeflStream}
    {bits : List Bool}
    (hCarries : Carries s (syncMarker bits))
    (hOpen : s.eobAdded = false)
    (hEmpty : s.outFifo.contents = []) :
    bitsOf s.nextOut = flushed bits ∧
      (byteBits s.obyte).take s.onumbits = fixedHeader := by
  have hEmitted := hCarries.emitted_eq
  simp only [hOpen, Bool.false_eq_true, if_false, emitted,
    hEmpty, List.append_nil, syncMarker] at hEmitted
  have hAligned := length_flushed_mod bits
  have hLengths := congrArg List.length hEmitted
  simp only [List.length_append, length_bitsOf,
    List.length_take, length_byteBits, fixedHeader,
    List.length_cons, List.length_nil] at hLengths
  have hBits := hCarries.onumbits_lt
  exact List.append_inj hEmitted (by
    rw [length_bitsOf]
    omega)

------------------------------------------------------------
-- Calls with a Flush Value
------------------------------------------------------------

/-
  A call that makes no request only drains the FIFO: with
  space left afterwards the stream is done, or it had no
  input.
-/
structure NoRequest
    (l : DeflateLabel) (s s' : DeflStream) : Prop where
  exchange : l.exchange = none
  nextIn : s'.nextIn = l.call.nextIn
  dictLen : s'.dictLen = s.dictLen
  eobAdded : s'.eobAdded = s.eobAdded
  availOut : l.call.availOut ≤ s'.availOut + 255
  drained : s'.availOut ≠ 0 →
    s'.outFifo.contents = [] ∧
    (l.rc = .ok ∧ deflateDone s' = false ∧
        l.call.nextIn = [] ∨
      l.rc = .streamEnd ∧ deflateDone s' = true)

/-
  A call that makes a request writes the marker behind it and
  drains the FIFO as far as there is space.
-/
structure OneRequest
    (l : DeflateLabel) (s' : DeflStream) : Prop where
  nextIn : l.call.nextIn ≠ []
  rc : l.rc = .ok
  eobAdded : s'.eobAdded = false
  dictLen : l.call.flush = .fullFlush → s'.dictLen = 0
  drained : s'.availOut ≠ 0 → s'.outFifo.contents = []
  exchange :
    ∃ ex, l.exchange = some ex ∧
      ex.req.outBuffLen ≤
        s'.availOut + ex.resp.outpReturned.toNat + 38

/- No more than the FIFO holds is ever drained. -/
theorem DrainedTo.availOut_ge
    {s s' : DeflStream} (hDrained : DrainedTo s s') :
    s.availOut ≤
      s'.availOut + s.outFifo.contents.length := by
  rcases hDrained.eq with ⟨out, f, hOut, _, rfl⟩
  rw [hOut, List.length_append]
  simp only
  omega

theorem DrainedTo.eobAdded_eq
    {s s' : DeflStream} (hDrained : DrainedTo s s') :
    s'.eobAdded = s.eobAdded := by
  rcases hDrained.eq with ⟨out, f, _, _, rfl⟩
  rfl

/- The header leaves the end flag and the space alone. -/
theorem deflateAddHeader_keeps
    (now : UInt32) (s : DeflStream) :
    (deflateAddHeader now s).2.eobAdded = s.eobAdded ∧
      (deflateAddHeader now s).2.availOut = s.availOut := by
  unfold deflateAddHeader
  split
  · exact ⟨rfl, rfl⟩
  · split
    · exact ⟨rfl, rfl⟩
    · split <;> exact ⟨rfl, rfl⟩
  · exact ⟨rfl, rfl⟩

/- The exits that a call without a request can take. -/
theorem deflatePrepare_exit
    {flush : Flush}
    {now : UInt32}
    {s s' : DeflStream}
    {rc : Rc}
    (hFlush : flush ≠ .finish)
    (hExit : deflatePrepare flush now s = .inl (rc, s'))
    (hOk : ¬ rc.IsNegative) :
    s'.eobAdded = s.eobAdded ∧
    s.availOut ≤ s'.availOut + 255 ∧
    (s'.availOut ≠ 0 →
      s'.outFifo.contents = [] ∧
      (rc = .ok ∧ deflateDone s' = false ∧ s'.nextIn = [] ∨
        rc = .streamEnd ∧ deflateDone s' = true)) := by
  unfold deflatePrepare at hExit
  generalize hAdd :
    (if s.headerAdded then (false, s)
      else deflateAddHeader now s) = added at hExit
  rcases added with ⟨_ | _, s₁⟩
  · have hDrained := deflateWriteOutFifo_spec s₁
    have hKeeps :
        s₁.eobAdded = s.eobAdded ∧
          s₁.availOut = s.availOut := by
      cases hHeader : s.headerAdded with
      | true =>
          rw [hHeader] at hAdd
          cases hAdd
          exact ⟨rfl, rfl⟩
      | false =>
          have hHeaded := deflateAddHeader_keeps now s
          rw [hHeader] at hAdd
          simp only [Bool.false_eq_true, if_false] at hAdd
          rw [hAdd] at hHeaded
          exact hHeaded
    have hHeld := s₁.outFifo.fifoUsed_lt
    rw [← ZedcFifo.length_contents] at hHeld
    have hSpace := hDrained.availOut_ge
    have hEob := hDrained.eobAdded_eq
    have hFull := hDrained.full
    simp only [deflatePrepareDrained, hFlush, false_and,
      if_false] at hExit
    generalize deflateWriteOutFifo s₁ = s₂ at *
    have hBase :
        s₂.eobAdded = s.eobAdded ∧
          s.availOut ≤ s₂.availOut + 255 := by
      simp only [zedcFifoSize] at hHeld
      exact ⟨by rw [hEob, hKeeps.1], by omega⟩
    unfold deflateExits at hExit
    by_cases hZero : s₂.availOut = 0
    · rw [if_pos hZero] at hExit
      cases hExit
      exact ⟨hBase.1, hBase.2, fun h => absurd hZero h⟩
    · have hEmpty := hFull.resolve_left hZero
      rw [if_neg hZero] at hExit
      by_cases hDone : deflateDone s₂
      · rw [if_pos hDone] at hExit
        cases hExit
        exact ⟨hBase.1, hBase.2,
          fun _ => ⟨hEmpty, Or.inr ⟨rfl, hDone⟩⟩⟩
      · rw [if_neg hDone, if_neg hZero] at hExit
        split at hExit
        · rename_i hInput
          cases hExit
          exact ⟨hBase.1, hBase.2,
            fun _ => ⟨hEmpty, Or.inl
              ⟨rfl, by simpa using hDone, hInput⟩⟩⟩
        · cases hExit
  · cases hExit
    exact absurd (by decide) hOk

/- A flush value that writes a marker drains behind it. -/
theorem deflateFlush_eq
    {flush : Flush}
    (s : DeflStream)
    (hMarker : flush.writesMarker = true) :
    deflateFlush flush s =
      { deflateWriteOutFifo (deflateSyncFlush s) with
        dictLen :=
          if flush = .fullFlush then 0
          else (deflateWriteOutFifo
            (deflateSyncFlush s)).dictLen } := by
  cases flush with
  | syncFlush => simp [deflateFlush]
  | partialFlush => simp [deflateFlush]
  | fullFlush => simp [deflateFlush]
  | finish => cases hMarker
  | noFlush => cases hMarker
  | block => cases hMarker
  | other value => cases hMarker

/- The marker takes at most the space of what waits. -/
theorem deflateFlush_marker
    {flush : Flush}
    {s : DeflStream}
    (hMarker : flush.writesMarker = true)
    (hRoom : s.outFifo.contents.length ≤ 31) :
    (deflateFlush flush s).eobAdded = s.eobAdded ∧
    s.availOut ≤ (deflateFlush flush s).availOut + 38 ∧
    ((deflateFlush flush s).availOut ≠ 0 →
      (deflateFlush flush s).outFifo.contents = []) := by
  rcases deflateSyncFlush_spec s (by omega) with
    ⟨f, hEq, hContents⟩
  have hLen :
      (syncBytes s.onumbits s.obyte).length ≤ 7 := by
    unfold syncBytes
    split
    · decide
    · split <;> simp [emptyStored]
  have hAvail : (deflateSyncFlush s).availOut = s.availOut := by
    rw [hEq]
  have hOpen : (deflateSyncFlush s).eobAdded = s.eobAdded := by
    rw [hEq]
  have hHeld :
      (deflateSyncFlush s).outFifo.contents.length ≤ 38 := by
    rw [hEq]
    simp only [hContents, List.length_append]
    omega
  rw [deflateFlush_eq s hMarker]
  generalize deflateSyncFlush s = marked at *
  have hDrained := deflateWriteOutFifo_spec marked
  have hSpace := hDrained.availOut_ge
  have hEob := hDrained.eobAdded_eq
  refine ⟨?_, ?_, ?_⟩
  · exact hEob.trans hOpen
  · simp only
    omega
  · exact hDrained.full.resolve_left

/-
  A call with a flush value that writes a marker either makes
  no request, or one whose marker it writes.
-/
theorem InStep.marker_call
    {s₀ s s' : DeflStream}
    {trace : List DeflateLabel}
    {l : DeflateLabel}
    (hIn : InStep s₀ trace s)
    (hLen : ∀ now, (formatHeader now s₀).length ≤ 255)
    (hStep : deflateStep s l s')
    (hMarker : l.call.flush.writesMarker = true) :
    NoRequest l s s' ∨ OneRequest l s' := by
  rcases hStep with ⟨hRet, hOk⟩
  have hOffered :=
    hIn.offer l.call.nextIn l.call.availOut
  have hFlush : l.call.flush ≠ .finish := by
    intro hFinish
    rw [hFinish] at hMarker
    cases hMarker
  have hFits :
      (headerNow l.call.env.now
        { s with
          nextIn := l.call.nextIn
          availOut := l.call.availOut }).length ≤ 255 := by
    rw [hOffered.headerNow_eq]
    split
    · exact hLen _
    · simp
  have hPrepare :=
    hOffered.carries.prepare l.call.flush l.call.env.now
      hOffered.headerPending hFits
  unfold DeflateCall.ret zedcDeflate at hRet
  generalize hOffer :
    deflatePrepare l.call.flush l.call.env.now
      { s with
        nextIn := l.call.nextIn
        availOut := l.call.availOut } = prepared at *
  rcases prepared with ⟨rc, s₂⟩ | s₂
  · left
    simp only [DeflRet.mk.injEq] at hRet
    rcases hRet with ⟨rfl, rfl, hNone⟩
    rcases hPrepare with hError | ⟨_, hTo⟩
    · rw [hError] at hOk
      exact absurd (by decide) hOk
    · rcases deflatePrepare_exit hFlush hOffer hOk with
        ⟨hEob, hSpace, hDrained⟩
      have hNextIn : s₂.nextIn = l.call.nextIn :=
        (congrArg DeflStream.nextIn hTo.inputSide_eq :)
      rw [hNextIn] at hDrained
      exact ⟨hNone.symm, hNextIn,
        (congrArg DeflStream.dictLen hTo.inputSide_eq :),
        hEob, hSpace, hDrained⟩
  · right
    rcases hPrepare with ⟨hTo, hReady⟩
    simp only at hRet
    have hAccepted :
        ¬ (deflateSubmit l.call.flush l.call.env
          s₂).rc.IsNegative := by
      rw [hRet]
      exact hOk
    have hNextIn : s₂.nextIn = l.call.nextIn :=
      (congrArg DeflStream.nextIn hTo.inputSide_eq :)
    rcases deflateSubmit_accepted hAccepted with
      ⟨ex, s₃, s₄, hExec, hResults, hWind⟩
    rw [hRet] at hWind
    rcases deflateExecute_spec hExec with
      ⟨⟨dict, rfl⟩, hReq⟩
    rcases hReq ex rfl with ⟨_, saveDict, dictLen, hReq⟩
    rcases deflateProcessResults_spec
        (by exact hReady.outFifo) hResults with
      ⟨f, obyte, hSpec, hRoom, _⟩
    rcases deflateFlush_marker (s := s₄) hMarker
        (by rw [hSpec]; exact hRoom) with
      ⟨hEob, hSpace, hDrained⟩
    have hOpen : (deflateFlush l.call.flush s₄).eobAdded =
        false := by
      rw [hEob, hSpec]
      exact hReady.eobAdded
    have hDone :
        deflateDone (deflateFlush l.call.flush s₄) =
          false := by
      simp [deflateDone, hOpen]
    simp only [deflateWindUp, hDone, Bool.false_eq_true,
      if_false, DeflRet.mk.injEq] at hWind
    rcases hWind with ⟨hRc, rfl, hSome⟩
    refine ⟨?_, hRc, hOpen, ?_, hDrained, ex, hSome, ?_⟩
    · rw [← hNextIn]
      exact hReady.nextIn
    · intro hFull
      have hInput :=
        (congrArg DeflStream.dictLen
          (inputSide_deflateFlush l.call.flush s₄) :)
      simp only [hFull, if_true] at hInput
      rw [hFull]
      exact hInput
    · have hBefore :
          s₄.availOut =
            s₂.availOut - ex.resp.outpReturned.toNat := by
        rw [hSpec]
        rfl
      rw [hReq]
      simp only [deflateRequest]
      omega

/-
  A flush call that returns `ZEDC_OK` with all input consumed
  and space left has made everything decodable if and only if
  it was given input, or nothing was left to be done.
-/
theorem flushComplete_iff
    {s₀ s s' : DeflStream}
    {trace : List DeflateLabel}
    {l : DeflateLabel}
    (hReady : Ready s₀)
    (hLen : ∀ now, (formatHeader now s₀).length ≤ 255)
    (hRun : Run deflateStep s₀ trace s)
    (hStep : deflateStep s l s')
    (hHonest : ∀ l' ∈ trace ++ [l], ∀ ex,
      l'.exchange = some ex →
        PrependsIbits s₀.dynHuffmanSupported ex)
    (hMarker : l.call.flush.writesMarker = true)
    (hSpace : s'.availOut ≠ 0)
    (hConsumed : s'.nextIn = []) :
    FlushComplete s₀ (trace ++ [l]) l.call.flush s' ↔
      l.call.nextIn ≠ [] ∨
        EndsWithMarker s₀ trace l.call.flush s := by
  have hIn := inStep_of_run hReady.fresh hLen hRun
    (fun l' hl => hHonest l' (List.mem_append_left _ hl))
  have hIn' := inStep_of_run hReady.fresh hLen
    (Run.next hRun hStep) hHonest
  -- a marker at the end of the pieces has gone out
  have hComplete :
      ∀ pieces,
        streamPieces s₀.dynHuffmanSupported
            (trace ++ [l]) = pieces ++ [.sync] →
        s'.eobAdded = false →
        s'.outFifo.contents = [] →
        (l.call.flush = .fullFlush → s'.dictLen = 0) →
        FlushComplete s₀ (trace ++ [l]) l.call.flush
          s' := by
    intro pieces hPieces hOpen hEmpty hDict
    have hCarries := hIn'.carries
    rw [streamBits, hPieces, render_append] at hCarries
    have hOut := hCarries.marker hOpen hEmpty
    exact ⟨hEmpty, ⟨pieces, hPieces, hOut.1⟩, hOut.2,
      hDict⟩
  rcases hIn.marker_call hLen hStep hMarker with
    hNone | hOne
  · have hSame :
        streamPieces s₀.dynHuffmanSupported
            (trace ++ [l]) =
          streamPieces s₀.dynHuffmanSupported trace := by
      simp [streamPieces_concat, DeflateLabel.pieces,
        hNone.exchange]
    have hNoInput : l.call.nextIn = [] := by
      rw [← hNone.nextIn, hConsumed]
    constructor
    · intro hFlushed
      rcases hFlushed.marker with ⟨pieces, hPieces, _⟩
      refine Or.inr ⟨?_, ?_, ?_⟩
      · -- a finished stream has no header of a next block
        rw [← hNone.eobAdded]
        by_contra hEob
        have hZero := hIn'.carries.ended (by simpa using hEob)
        have hObyte := hFlushed.obyte
        rw [hZero] at hObyte
        cases hObyte
      · rw [← hSame, hPieces, List.getLast?_concat]
      · rw [← hNone.dictLen]
        exact hFlushed.dictLen
    · intro hEnds
      rcases hEnds.resolve_left (fun h => h hNoInput) with
        ⟨hOpen, hLast, hDictLen⟩
      rcases List.getLast?_eq_some_iff.mp hLast with
        ⟨pieces, hPieces⟩
      exact hComplete pieces (by rw [hSame, hPieces])
        (by rw [hNone.eobAdded, hOpen])
        (hNone.drained hSpace).1
        (by rw [hNone.dictLen]; exact hDictLen)
  · refine ⟨fun _ => Or.inl hOne.nextIn, fun _ => ?_⟩
    rcases hOne.exchange with ⟨ex, hSome, _⟩
    have hPieces :
        streamPieces s₀.dynHuffmanSupported
            (trace ++ [l]) =
          (streamPieces s₀.dynHuffmanSupported trace ++
            [.data
              (ex.newBits s₀.dynHuffmanSupported)]) ++
              [.sync] := by
      simp [streamPieces_concat, DeflateLabel.pieces, hSome,
        exchangePieces, hMarker]
    exact hComplete _ hPieces hOne.eobAdded
      (hOne.drained hSpace) hOne.dictLen

end Zedc
