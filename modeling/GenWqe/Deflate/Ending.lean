import GenWqe.Deflate.Accounts

/-
  How a stream that `zedc_deflate` writes comes to its end:
  which call adds the closing sequence and the trailer, and
  what `ZEDC_STREAM_END` tells the caller.

  Key definitions include:
    * `Finishes`, `Ended`

  Main results:
    * `zedcDeflate_streamEnd`
    * `eobAdded_of_run`
    * `zedcDeflate_emits`
-/

------------------------------------------------------------
-- The End of Block
------------------------------------------------------------

namespace Zedc

open Bits BlockBits

/- Finishing adds the end of block. -/
theorem eobAdded_deflateFinish
    {s : DeflStream} (hBits : s.onumbits < 8) :
    (deflateFinish s).eobAdded = true := by
  have hTrailer :
      ∀ t : DeflStream,
        (deflateAddTrailer t).eobAdded = t.eobAdded := by
    intro t
    unfold deflateAddTrailer
    split_ifs <;> rfl
  have hEob : (deflateWriteEob s).eobAdded = true := by
    unfold deflateWriteEob
    split_ifs with hAdded hMany
    · exact hAdded
    · omega
    · rfl
    · rfl
  unfold deflateFinish
  rw [(deflateWriteOutFifo_spec _).eobAdded_eq, hTrailer,
    hEob]

/- Up to the request a stream that was ended stays so. -/
theorem eobAdded_deflatePrepare
    (flush : Flush)
    (now : UInt32)
    {s : DeflStream}
    (hEob : s.eobAdded = true) :
    (preparedStrm (deflatePrepare flush now s)).eobAdded =
      true := by
  have hFinish :
      ∀ t : DeflStream, t.eobAdded = true →
        (deflateFinish t).eobAdded = true := by
    intro t hEnded
    have hWrite : deflateWriteEob t = t := by
      unfold deflateWriteEob
      rw [if_pos hEnded]
    unfold deflateFinish
    rw [(deflateWriteOutFifo_spec _).eobAdded_eq, hWrite]
    unfold deflateAddTrailer
    split_ifs <;> exact hEnded
  have hHeader :
      (if s.headerAdded then (false, s)
        else deflateAddHeader now s).2.eobAdded = true := by
    split
    · exact hEob
    · rw [(deflateAddHeader_keeps now s).1, hEob]
  unfold deflatePrepare
  generalize
    (if s.headerAdded then (false, s)
      else deflateAddHeader now s) = added at *
  rcases added with ⟨_ | _, s₁⟩
  · have hDrained :=
      (deflateWriteOutFifo_spec s₁).eobAdded_eq
    rw [hHeader] at hDrained
    simp only
    unfold deflatePrepareDrained
    split
    · exact hDrained
    · rw [deflateExits_strm]
      split
      · exact hFinish _ hDrained
      · exact hDrained
  · exact hHeader

/- The end is returned with everything written out. -/
theorem zedcDeflate_streamEnd
    {flush : Flush}
    {env : DeflateEnv}
    {s : DeflStream}
    (hEnd : (zedcDeflate flush env s).rc = .streamEnd) :
    deflateDone (zedcDeflate flush env s).strm = true := by
  have hExits :
      ∀ {t : DeflStream} {ret : Rc × DeflStream},
        deflateExits t = .inl ret → ret.1 = .streamEnd →
          deflateDone ret.2 = true := by
    intro t ret hIs hRc
    unfold deflateExits at hIs
    split at hIs
    · rename_i hDone
      cases hIs
      exact hDone
    · split at hIs
      · cases hIs
        cases hRc
      · split at hIs
        · cases hIs
          cases hRc
        · cases hIs
  unfold zedcDeflate at hEnd ⊢
  cases hPrepare : deflatePrepare flush env.now s with
  | inl ret =>
      rw [hPrepare] at hEnd
      unfold deflatePrepare at hPrepare
      split at hPrepare
      · cases hPrepare
        cases hEnd
      · unfold deflatePrepareDrained at hPrepare
        split at hPrepare
        · cases hPrepare
          cases hEnd
        · exact hExits hPrepare hEnd
  | inr s₁ =>
      rw [hPrepare] at hEnd
      have hOk :
          ¬ (deflateSubmit flush env s₁).rc.IsNegative := by
        change (deflateSubmit flush env s₁).rc = _ at hEnd
        rw [hEnd]
        decide
      rcases deflateSubmit_accepted hOk with
        ⟨ex, s₂, s₃, _, _, hEq⟩
      change (deflateSubmit flush env s₁).rc = _ at hEnd
      change deflateDone (deflateSubmit flush env s₁).strm = _
      rw [hEq] at hEnd ⊢
      change (if deflateDone (deflateFlush flush s₃) then
        Rc.streamEnd else .ok) = _ at hEnd
      change deflateDone (deflateFlush flush s₃) = true
      by_contra hNot
      rw [if_neg hNot] at hEnd
      cases hEnd

------------------------------------------------------------
-- Which Call Ends the Stream
------------------------------------------------------------

/-
  The bytes that go out in front of all that a call adds: what
  the FIFO holds and, in the first call, the header.
-/
def waitingBytes (now : UInt32) (s : DeflStream) : Nat :=
  s.outFifo.contents.length + (headerNow now s).length

/-
  The call asks for the end and leaves no input. Where it made
  no request it has output space behind the bytes waiting.
-/
def Finishes (s : DeflStream) (l : DeflateLabel) : Prop :=
  l.call.flush = .finish ∧
    (l.call.ret s).strm.nextIn = [] ∧
      (l.exchange.isSome ∨
        waitingBytes l.call.env.now s < l.call.availOut)

/- Some call of the run has ended the stream. -/
def Ended
    (s₀ : DeflStream) (trace : List DeflateLabel) : Prop :=
  ∃ past l s,
    past ++ [l] <+: trace ∧ Run deflateStep s₀ past s ∧
      Finishes s l

section Ends

variable {s s₁ s' : DeflStream} {bits : List Bool}
variable {flush : Flush} {now : UInt32} {rc : Rc}

/- Space is left behind the FIFO if it holds less. -/
theorem DrainedTo.room_iff (hDrained : DrainedTo s s') :
    s'.availOut ≠ 0 ↔
      s.outFifo.contents.length < s.availOut := by
  have hFull := hDrained.full
  rcases hDrained.eq with ⟨out, f, hOut, hLe, rfl⟩
  have hLength := congrArg List.length hOut
  rw [List.length_append] at hLength
  simp only at hFull ⊢
  constructor
  · intro hRoom
    rw [hFull.resolve_left hRoom, List.length_nil] at hLength
    omega
  · intro hLt
    omega

/- With space left a stream that was ended is done. -/
theorem deflateDone_of_eobAdded
    (hCarries : Carries s bits)
    (hDrained : s.availOut = 0 ∨ s.outFifo.contents = [])
    (hEob : s.eobAdded = true)
    (hRoom : s.availOut ≠ 0) : deflateDone s = true := by
  have hEmpty := hDrained.resolve_left hRoom
  have hTrailer : s.trailerAdded = true := by
    rw [← hCarries.paired, hEob]
  simp [deflateDone, hEob, hTrailer,
    (ZedcFifo.fifoEmpty_iff _).mpr hEmpty]

/- The last exits in front of a request. -/
theorem deflateExits_ends
    (hCarries : Carries s bits)
    (hDrained : s.availOut = 0 ∨ s.outFifo.contents = [])
    (hExit : deflateExits s = .inl (rc, s')) :
    s' = s ∧
      (s.eobAdded = true → s.availOut ≠ 0 →
        rc = .streamEnd) := by
  unfold deflateExits at hExit
  by_cases hDone : deflateDone s
  · rw [if_pos hDone] at hExit
    cases hExit
    exact ⟨rfl, fun _ _ => rfl⟩
  · have hOpen :
        s.eobAdded = true → s.availOut ≠ 0 →
          rc = .streamEnd := fun hEob hRoom =>
      absurd
        (deflateDone_of_eobAdded hCarries hDrained hEob hRoom)
        hDone
    rw [if_neg hDone] at hExit
    split at hExit
    · cases hExit
      exact ⟨rfl, hOpen⟩
    · split at hExit
      · cases hExit
        exact ⟨rfl, hOpen⟩
      · cases hExit

/- A call that has drained the FIFO and makes no request. -/
theorem deflatePrepareDrained_ends
    (hCarries : Carries s bits)
    (hDrained : s.availOut = 0 ∨ s.outFifo.contents = [])
    (hExit : deflatePrepareDrained flush s = .inl (rc, s')) :
    (s'.eobAdded = true ↔
        s.eobAdded = true ∨
          flush = .finish ∧ s.nextIn = [] ∧
            s.availOut ≠ 0) ∧
      (s'.eobAdded = true → s'.availOut ≠ 0 →
        rc = .streamEnd) := by
  unfold deflatePrepareDrained at hExit
  by_cases hFull : s.availOut = 0
  · rw [if_pos hFull] at hExit
    cases hExit
    exact ⟨by simp [hFull], fun _ hRoom => absurd hFull hRoom⟩
  · have hEmpty := hDrained.resolve_left hFull
    rw [if_neg hFull] at hExit
    by_cases hFinish : flush = .finish ∧ s.nextIn = []
    · rw [if_pos hFinish] at hExit
      have hClosed := hCarries.finish (by simp [hEmpty])
      have hAll :
          (deflateFinish s).availOut = 0 ∨
            (deflateFinish s).outFifo.contents = [] :=
        (deflateWriteOutFifo_spec _).full
      rcases deflateExits_ends hClosed hAll hExit with
        ⟨rfl, hRc⟩
      have hEob :=
        eobAdded_deflateFinish hCarries.onumbits_lt
      exact ⟨iff_of_true hEob
        (Or.inr ⟨hFinish.1, hFinish.2, hFull⟩), hRc⟩
    · rw [if_neg hFinish] at hExit
      rcases deflateExits_ends hCarries hDrained hExit with
        ⟨rfl, hRc⟩
      refine ⟨⟨Or.inl, fun h => h.resolve_right ?_⟩, hRc⟩
      rintro ⟨hFlush, hInput, _⟩
      exact hFinish ⟨hFlush, hInput⟩

/- The header goes in front of what waits. -/
theorem length_header
    (hPending : HeaderPending s)
    (hLen : (headerNow now s).length ≤ 255)
    (hAdd :
      (if s.headerAdded then (false, s)
        else deflateAddHeader now s) = (false, s')) :
    s'.outFifo.contents.length = waitingBytes now s ∧
      s'.availOut = s.availOut ∧ s'.nextIn = s.nextIn ∧
      s'.eobAdded = s.eobAdded := by
  unfold waitingBytes
  cases hAdded : s.headerAdded with
  | true =>
      rw [hAdded, if_pos rfl] at hAdd
      cases hAdd
      simp [headerNow, hAdded]
  | false =>
      rw [hAdded, if_neg Bool.false_ne_true] at hAdd
      have hHeader : headerNow now s = formatHeader now s := by
        simp [headerNow, hAdded]
      rw [hHeader] at hLen ⊢
      rcases hPending hAdded with hDefl | ⟨_, hFifo, _⟩
      · have hSame : s = s' := by
          simpa [deflateAddHeader, hDefl] using hAdd
        subst hSame
        simp [formatHeader, hDefl]
      · rcases deflateAddHeader_spec now s hFifo hLen
            (by rw [hAdd]) with ⟨f, hEq, hContents⟩
        rw [hAdd] at hEq
        subst hEq
        simp [hContents, hFifo]

/- A call that makes no request. -/
theorem deflatePrepare_ends
    (hCarries : Carries s bits)
    (hPending : HeaderPending s)
    (hLen : (headerNow now s).length ≤ 255)
    (hExit : deflatePrepare flush now s = .inl (rc, s'))
    (hOk : ¬ rc.IsNegative) :
    (s'.eobAdded = true ↔
        s.eobAdded = true ∨
          flush = .finish ∧ s.nextIn = [] ∧
            waitingBytes now s < s.availOut) ∧
      (s'.eobAdded = true → s'.availOut ≠ 0 →
        rc = .streamEnd) := by
  unfold deflatePrepare at hExit
  generalize hAdd :
    (if s.headerAdded then (false, s)
      else deflateAddHeader now s) = added at hExit
  rcases added with ⟨_ | _, s₁⟩
  · rcases hCarries.header hPending hLen hAdd with
      ⟨_, _, hBits⟩
    rcases length_header hPending hLen hAdd with
      ⟨hLength, hAvail, hNextIn, hEob⟩
    have hDrained := deflateWriteOutFifo_spec s₁
    have hRoom := hDrained.room_iff
    have hInput :
        (deflateWriteOutFifo s₁).nextIn = s₁.nextIn :=
      (congrArg DeflStream.nextIn
        (inputSide_deflateWriteOutFifo s₁) :)
    have hEnds := deflatePrepareDrained_ends
      (hBits.drain hDrained) hDrained.full hExit
    rw [hDrained.eobAdded_eq, hInput, hRoom, hLength, hAvail,
      hNextIn, hEob] at hEnds
    exact hEnds
  · cases hExit
    exact absurd (by decide) hOk

/- Only finishing adds the end of block behind a request. -/
theorem deflateFlush_ends
    (hCarries : Carries s bits)
    (hOpen : s.eobAdded = false)
    (hRoom : s.outFifo.contents.length ≤ 31) :
    ((deflateFlush flush s).eobAdded = true ↔
        flush = .finish ∧ (deflateFlush flush s).nextIn = []) ∧
      ((deflateFlush flush s).eobAdded = true →
        (deflateFlush flush s).availOut ≠ 0 →
          deflateDone (deflateFlush flush s) = true) := by
  have hInput :
      (deflateFlush flush s).nextIn = s.nextIn :=
    (congrArg DeflStream.nextIn
      (inputSide_deflateFlush flush s) :)
  rw [hInput]
  by_cases hFinish : flush = .finish ∧ s.nextIn = []
  · have hFlush : deflateFlush flush s = deflateFinish s := by
      rw [hFinish.1, deflateFlush, if_pos hFinish.2]
    rw [hFlush]
    have hEob := eobAdded_deflateFinish hCarries.onumbits_lt
    refine ⟨iff_of_true hEob hFinish, fun _ hLeft => ?_⟩
    exact deflateDone_of_eobAdded (hCarries.finish hRoom)
      (deflateWriteOutFifo_spec _).full hEob hLeft
  · have hSame : (deflateFlush flush s).eobAdded = false := by
      by_cases hMarker : flush.writesMarker = true
      · rw [(deflateFlush_marker hMarker hRoom).1, hOpen]
      · cases flush with
        | finish =>
            rw [deflateFlush,
              if_neg (fun h => hFinish ⟨rfl, h⟩), hOpen]
        | syncFlush => exact absurd rfl hMarker
        | partialFlush => exact absurd rfl hMarker
        | fullFlush => exact absurd rfl hMarker
        | noFlush => exact hOpen
        | block => exact hOpen
        | other value => exact hOpen
    rw [hSame]
    exact ⟨iff_of_false Bool.false_ne_true hFinish,
      fun h => by cases h⟩

/- A call that makes a request. -/
theorem deflateSubmit_ends
    {env : DeflateEnv}
    (hCarries : Carries s bits)
    (hReady : SubmitReady s)
    (hOk : ¬ (deflateSubmit flush env s).rc.IsNegative) :
    ((deflateSubmit flush env s).strm.eobAdded = true ↔
        flush = .finish ∧
          (deflateSubmit flush env s).strm.nextIn = []) ∧
      ((deflateSubmit flush env s).strm.eobAdded = true →
        (deflateSubmit flush env s).strm.availOut ≠ 0 →
          (deflateSubmit flush env s).rc = .streamEnd) := by
  rcases deflateSubmit_accepted hOk with
    ⟨ex, s₁, s₂, hExec, hResults, hEq⟩
  rcases deflateExecute_spec hExec with ⟨⟨dict, rfl⟩, _⟩
  have hEmpty : s.outFifo.contents = [] := hReady.outFifo
  rcases deflateProcessResults_spec
      (by exact hEmpty) hResults with
    ⟨f, obyte, hSpec, hRoom, _⟩
  have hOpen : s₂.eobAdded = false := by
    rw [hSpec]
    exact hReady.eobAdded
  have hTaken : Carries s₂ (emitted s₂) := by
    refine ⟨?_, ?_, fun h => ?_, ?_⟩
    · rw [hSpec]
      exact Nat.mod_lt _ (by decide)
    · rw [hSpec]
      exact hCarries.paired
    · rw [hOpen] at h
      cases h
    · rw [hOpen]
      rfl
  have hLeast : s₂.outFifo.contents.length ≤ 31 := by
    rw [hSpec]
    exact hRoom
  have hFlushed :
      ((deflateFlush flush s₂).eobAdded = true ↔
        flush = .finish ∧
          (deflateFlush flush s₂).nextIn = []) ∧ _ :=
    deflateFlush_ends hTaken hOpen hLeast
  rcases hFlushed with ⟨hEnds, hDone⟩
  rw [hEq]
  exact ⟨hEnds, fun hEob hLeft =>
    if_pos (hDone hEob hLeft)⟩

end Ends

------------------------------------------------------------
-- Runs
------------------------------------------------------------

section Runs

variable {s₀ s s' : DeflStream}
variable {trace : List DeflateLabel} {l : DeflateLabel}

theorem deflateStep_unique
    (s : DeflStream)
    (l : DeflateLabel)
    (s₁ s₂ : DeflStream)
    (hFirst : deflateStep s l s₁)
    (hSecond : deflateStep s l s₂) : s₁ = s₂ :=
  congrArg DeflRet.strm (hFirst.1.symm.trans hSecond.1)

/- A call ends the stream exactly if it finishes it. -/
theorem InStep.ends
    (hLen : ∀ now, (formatHeader now s₀).length ≤ 255)
    (hIn : InStep s₀ trace s)
    (hStep : deflateStep s l s') :
    (s'.eobAdded = true ↔
        s.eobAdded = true ∨ Finishes s l) ∧
      (s'.eobAdded = true → s'.availOut ≠ 0 →
        l.rc = .streamEnd) := by
  rcases hStep with ⟨hRet, hOk⟩
  have hOffered :=
    hIn.offer l.call.nextIn l.call.availOut
  unfold Finishes
  rw [hRet]
  unfold DeflateCall.ret zedcDeflate at hRet
  have hWaiting :
      waitingBytes l.call.env.now s =
        waitingBytes l.call.env.now
          { s with
            nextIn := l.call.nextIn
            availOut := l.call.availOut } := rfl
  have hEob :
      s.eobAdded =
        ({ s with
          nextIn := l.call.nextIn
          availOut := l.call.availOut } :
            DeflStream).eobAdded := rfl
  have hAvail :
      l.call.availOut =
        ({ s with
          nextIn := l.call.nextIn
          availOut := l.call.availOut } :
            DeflStream).availOut := rfl
  rw [hWaiting, hEob, hAvail]
  generalize
    ({ s with
        nextIn := l.call.nextIn
        availOut := l.call.availOut } : DeflStream) = s₁
    at *
  have hFits :
      (headerNow l.call.env.now s₁).length ≤ 255 := by
    rw [hOffered.headerNow_eq]
    split
    · exact hLen _
    · simp
  have hPrepare :=
    hOffered.carries.prepare l.call.flush l.call.env.now
      hOffered.headerPending hFits
  have hInput := nextIn_deflatePrepare l.call.flush
    l.call.env.now s₁
  have hStill := eobAdded_deflatePrepare (s := s₁)
    l.call.flush l.call.env.now
  cases hPrepared :
      deflatePrepare l.call.flush l.call.env.now s₁ with
  | inl ret =>
      rcases ret with ⟨rc, s₂⟩
      rw [hPrepared] at hRet hInput
      simp only [DeflRet.mk.injEq] at hRet
      rcases hRet with ⟨rfl, rfl, hNone⟩
      have hEnds := deflatePrepare_ends hOffered.carries
        hOffered.headerPending hFits hPrepared hOk
      change s₂.nextIn = s₁.nextIn at hInput
      rw [hInput, ← hNone]
      simpa using hEnds
  | inr s₂ =>
      rw [hPrepared] at hRet hPrepare hStill
      rcases hPrepare with ⟨hTo, hReady⟩
      simp only at hRet
      have hOpen : s₁.eobAdded = false := by
        by_contra hNot
        have hBoth := hStill (by simpa using hNot)
        rw [preparedStrm, hReady.eobAdded] at hBoth
        cases hBoth
      have hNoError :
          ¬ (deflateSubmit l.call.flush l.call.env
            s₂).rc.IsNegative := by
        rw [hRet]
        exact hOk
      rcases hTo.carries.submit hReady hNoError with
        ⟨ex, hSome, _, _⟩
      have hEnds :=
        deflateSubmit_ends hTo.carries hReady hNoError
      rw [hRet] at hSome hEnds
      change l.exchange = some ex at hSome
      rw [hOpen, hSome]
      simpa using hEnds

/- The end is reached in the call that finishes. -/
theorem ended_next
    (hRun : Run deflateStep s₀ trace s) :
    Ended s₀ (trace ++ [l]) ↔
      Ended s₀ trace ∨ Finishes s l := by
  constructor
  · rintro ⟨past, l', s₁, hPre, hPast, hFinishes⟩
    rcases List.prefix_concat_iff.mp hPre with hEq | hPre
    · rcases List.append_inj' hEq rfl with ⟨rfl, hSame⟩
      cases hSame
      obtain rfl := hPast.unique deflateStep_unique hRun
      exact Or.inr hFinishes
    · exact Or.inl ⟨past, l', s₁, hPre, hPast, hFinishes⟩
  · rintro (⟨past, l', s₁, hPre, hPast, hFinishes⟩ | hLast)
    · exact ⟨past, l', s₁,
        hPre.trans (List.prefix_append _ _), hPast,
        hFinishes⟩
    · exact ⟨trace, l, s, List.prefix_refl _, hRun, hLast⟩

/- The end of block is there once a call has finished. -/
theorem eobAdded_of_run
    (hFresh : Fresh s₀)
    (hLen : ∀ now, (formatHeader now s₀).length ≤ 255)
    (hRun : Run deflateStep s₀ trace s)
    (hHonest : ∀ l ∈ trace, ∀ ex, l.exchange = some ex →
      PrependsIbits s₀.dynHuffmanSupported ex) :
    s.eobAdded = true ↔ Ended s₀ trace := by
  induction hRun with
  | start =>
      rw [hFresh.eobAdded]
      refine iff_of_false Bool.false_ne_true ?_
      rintro ⟨past, l, s, hPre, _⟩
      have hNil := List.prefix_nil.mp hPre
      simp at hNil
  | @next trace s s' l hPast hNext ih =>
      have hBefore : ∀ l ∈ trace, ∀ ex,
          l.exchange = some ex →
            PrependsIbits s₀.dynHuffmanSupported ex :=
        fun l hMem => hHonest l (List.mem_append_left _ hMem)
      have hIn := inStep_of_run hFresh hLen hPast hBefore
      rw [(hIn.ends hLen hNext).1, ih hBefore,
        ended_next hPast]

/- The trailer is the one of the run. -/
theorem InStep.trailer (hIn : InStep s₀ trace s) :
    s.trailer = streamTrailer s₀ trace := by
  rw [DeflStream.trailer, streamTrailer, hIn.format,
    hIn.crc32, hIn.adler32, hIn.totalIn]

/-
  At every point of a run without errors, the bytes given out,
  the FIFO and the fewer than eight valid bits of the partial
  byte are the format header and the fixed block with the bits
  of the accelerator and one marker for every flush made. Once
  a call has asked for the end and all its input is absorbed,
  one closing sequence and the trailer are behind them. The
  end is returned to a caller that has all of it, and with
  space left it is returned.
-/
theorem zedcDeflate_emits
    (hReady : Ready s₀)
    (hLen : ∀ now, (formatHeader now s₀).length ≤ 255)
    (hRun : Run deflateStep s₀ trace s)
    (hHonest : ∀ l ∈ trace, ∀ ex, l.exchange = some ex →
      PrependsIbits s₀.dynHuffmanSupported ex) :
    s.onumbits < 8 ∧
    (¬ Ended s₀ trace →
      bitsOf (s.nextOut ++ s.outFifo.contents) ++
          (byteBits s.obyte).take s.onumbits =
        streamBits s₀ trace) ∧
    (Ended s₀ trace →
      bitsOf (s.nextOut ++ s.outFifo.contents) ++
          (byteBits s.obyte).take s.onumbits =
        closing (streamBits s₀ trace) ++
          bitsOf (streamTrailer s₀ trace)) ∧
    ∀ past l, trace = past ++ [l] →
      (l.rc = .streamEnd →
        Ended s₀ trace ∧
          bitsOf s.nextOut =
            closing (streamBits s₀ trace) ++
              bitsOf (streamTrailer s₀ trace)) ∧
      (Ended s₀ trace → s.availOut ≠ 0 →
        l.rc = .streamEnd) := by
  have hIn := inStep_of_run hReady.fresh hLen hRun hHonest
  have hEnded :=
    eobAdded_of_run hReady.fresh hLen hRun hHonest
  have hEmitted := hIn.carries.emitted_eq
  rw [hIn.trailer] at hEmitted
  have hClosed :
      Ended s₀ trace →
        emitted s =
          closing (streamBits s₀ trace) ++
            bitsOf (streamTrailer s₀ trace) := by
    intro hEnd
    rw [hEmitted, if_pos (hEnded.mpr hEnd)]
  refine ⟨hIn.carries.onumbits_lt, fun hOpen => ?_, hClosed,
    ?_⟩
  · rw [← emitted, hEmitted,
      if_neg (fun hEob => hOpen (hEnded.mp hEob))]
  · rintro past l rfl
    rcases hRun.last with ⟨s₁, hPast, hNext⟩
    have hBefore : ∀ l ∈ past, ∀ ex,
        l.exchange = some ex →
          PrependsIbits s₀.dynHuffmanSupported ex :=
      fun l hMem => hHonest l (List.mem_append_left _ hMem)
    have hEnds := ((inStep_of_run hReady.fresh hLen hPast
      hBefore).ends hLen hNext).2
    refine ⟨fun hRc => ?_, fun hEnd =>
      hEnds (hEnded.mpr hEnd)⟩
    have hDone : deflateDone s = true := by
      have hRet := hNext.1
      unfold DeflateCall.ret at hRet
      have hIs :
          (zedcDeflate l.call.flush l.call.env
            { s₁ with
              nextIn := l.call.nextIn
              availOut := l.call.availOut }).rc =
            .streamEnd := by
        rw [hRet]
        exact hRc
      have hDone := zedcDeflate_streamEnd hIs
      rw [hRet] at hDone
      exact hDone
    have hEob : s.eobAdded = true := by
      simp only [deflateDone, Bool.and_eq_true] at hDone
      exact hDone.1.1
    have hEmpty : s.outFifo.contents = [] := by
      simp only [deflateDone, Bool.and_eq_true,
        ZedcFifo.fifoEmpty_iff] at hDone
      exact hDone.2
    have hAll := hClosed (hEnded.mp hEob)
    rw [emitted, hEmpty, hIn.carries.ended hEob,
      List.take_zero, List.append_nil, List.append_nil] at hAll
    exact ⟨hEnded.mp hEob, hAll⟩

end Runs

/- The stream is ended, with nothing more to absorb. -/
def echoFinish : DeflateCall :=
  { echoCall with nextIn := [], flush := .finish }

/- The ZLIB stream behind the flush. -/
def echoFlushed : DeflStream := (echoCall.ret echoStream).strm

/- A byte is flushed, and the stream is ended behind it. -/
def echoTrace : List DeflateLabel :=
  [echoCall.label echoStream, echoFinish.label echoFlushed]

theorem zedcDeflate_emits_ended :
    bitsOf (echoFinish.ret echoFlushed).strm.nextOut =
      closing (streamBits echoStream echoTrace) ++
        bitsOf (streamTrailer echoStream echoTrace) := by
  have hRun :
      Run deflateStep echoStream echoTrace
        (echoFinish.ret echoFlushed).strm :=
    Run.next
      (Run.next Run.start ⟨rfl, by decide⟩ :
        Run deflateStep echoStream
          [echoCall.label echoStream] echoFlushed)
      ⟨rfl, by decide⟩
  have hEmits := zedcDeflate_emits
    (Ready.init (DeflStream.zeroed .zlib true))
    (fun _ => by
      show (2 : Nat) ≤ 255
      decide)
    hRun
    (by
      intro l hl ex hEx
      simp only [echoTrace, List.mem_cons, List.not_mem_nil,
        or_false] at hl
      rcases hl with rfl | rfl
      · cases hEx
        show List.take 3 _ = List.take 3 _
        decide
      · cases hEx)
  have hLast := hEmits.2.2.2 [echoCall.label echoStream]
    (echoFinish.label echoFlushed) rfl
  exact (hLast.1 (by decide)).2

end Zedc
