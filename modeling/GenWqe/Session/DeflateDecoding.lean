import GenWqe.Deflate.Decodes
import GenWqe.Session.DeflateHw
import GenWqe.Session.SkipDeflate

/-
  What the caller of `h_deflate` gets, with the input buffer
  or without: the stream that its calls come to is a deflate
  stream of the input they have consumed.

  Key definitions include:
    * `hDeflateMove`
    * `Collected`
    * `AllOut`

  Main results:
    * `zedcDeflate_absorbs`
    * `Collected.round`
    * `hDeflate_decodes`
-/

------------------------------------------------------------
-- The Input of a Call
------------------------------------------------------------

namespace Session

open Zedc Hardware Bits Rfc1951

/- What an exchange absorbs is taken from the input. -/
theorem deflateSubmit_absorbs
    {flush : Flush}
    {env : DeflateEnv}
    {s : DeflStream}
    (hEmpty : s.outFifo.contents = [])
    (hOk : ¬ (deflateSubmit flush env s).rc.IsNegative) :
    (deflateSubmit flush env s).exchange.elim []
          DeflExchange.absorbed ++
        (deflateSubmit flush env s).strm.nextIn =
      s.nextIn := by
  rcases deflateSubmit_accepted hOk with
    ⟨ex, s₁, s₂, hExec, hResults, hEq⟩
  rw [hEq]
  rcases deflateExecute_answers hExec with ⟨_, _, hIn, _⟩
  rcases deflateExecute_spec hExec with ⟨⟨dict, rfl⟩, _⟩
  rcases deflateProcessResults_spec
      (by exact hEmpty) hResults with ⟨f, obyte, hSpec, _, _⟩
  have hInput :=
    congrArg DeflStream.nextIn (inputSide_deflateFlush flush s₂)
  rw [hSpec] at hInput
  have hRest :
      (deflateFlush flush s₂).nextIn =
        s.nextIn.drop ex.resp.inpProcessed.toNat := by
    rw [hSpec]
    exact hInput
  change ex.absorbed ++ (deflateFlush flush s₂).nextIn = _
  unfold DeflExchange.absorbed
  rw [hRest, hIn]
  exact List.take_append_drop _ _

theorem zedcDeflate_absorbs
    {flush : Flush}
    {env : DeflateEnv}
    {s : DeflStream}
    (hOk : ¬ (zedcDeflate flush env s).rc.IsNegative) :
    (zedcDeflate flush env s).exchange.elim []
          DeflExchange.absorbed ++
        (zedcDeflate flush env s).strm.nextIn =
      s.nextIn := by
  have hKept := nextIn_deflatePrepare flush env.now s
  unfold zedcDeflate at hOk ⊢
  cases hPrepare : deflatePrepare flush env.now s with
  | inl ret =>
      rw [hPrepare] at hKept
      exact hKept
  | inr s₁ =>
      rw [hPrepare] at hKept hOk
      rw [← hKept]
      exact deflateSubmit_absorbs
        (deflatePrepare_drained hPrepare) hOk

------------------------------------------------------------
-- The Input of All Calls
------------------------------------------------------------

/-
  Behind the bytes consumed in the `past`, and with `offered`
  in this call: what is not with the caller any more was
  absorbed or waits in the input buffer.
-/
structure Collected
    (past offered : List UInt8) (st : HDeflate) : Prop where
  input :
    absorbedBytes st.calls ++ st.s.ibuf ++ st.strm.nextIn =
      past ++ offered
  rest : st.strm.nextIn <:+ offered
  done :
    st.s.rc = .streamEnd → deflateDone st.s.h = true

/- The end is returned with nothing left in any buffer. -/
structure AllOut (st : HDeflate) : Prop where
  done : deflateDone st.s.h = true
  ibuf : st.s.ibuf = []
  waiting : st.s.obuf.waiting = []

section Rounds

variable {past offered : List UInt8} {st st' : HDeflate}
variable {flush : Flush} {env : DeflateEnv} {rc : Rc}

theorem Collected.read
    (hInv : Collected past offered st) :
    Collected past offered (hReadIbuf st) := by
  unfold hReadIbuf
  split
  · exact hInv
  · refine ⟨?_, (List.drop_suffix _ _).trans hInv.rest,
      hInv.done⟩
    simp only [List.append_assoc, List.take_append_drop]
    rw [← hInv.input, List.append_assoc]

theorem Collected.flushed
    (hInv : Collected past offered st) :
    Collected past offered (hDeflateFlushObuf st) := by
  have hSame := (hDeflateFlushObuf_input st).1
  refine ⟨?_, ?_, hInv.done⟩
  · rw [hSame]
    exact hInv.input
  · rw [hSame]
    exact hInv.rest

/- What the calls with a further one have absorbed. -/
theorem absorbedBytes_call
    {c : DeflateCall}
    {h : DeflStream}
    (calls : List DeflateLabel)
    (hOk : ¬ (c.label h).rc.IsNegative) :
    absorbedBytes (calls ++ [c.label h]) ++
        (c.ret h).strm.nextIn =
      absorbedBytes calls ++ c.nextIn := by
  have hAbsorbs := zedcDeflate_absorbs (s :=
    { h with nextIn := c.nextIn, availOut := c.availOut }) hOk
  rw [absorbedBytes_concat, List.append_assoc]
  exact congrArg (absorbedBytes calls ++ ·) hAbsorbs

/- All of the input buffer is absorbed. -/
theorem Collected.send
    (hInv : Collected past offered st)
    (hSend : hDeflateSend flush env st = .inr st')
    (hClean : st'.Clean) :
    Collected past offered st' := by
  unfold hDeflateSend at hSend
  simp only at hSend
  split at hSend
  · rename_i hAbsorbed
    cases hSend
    have hOk : ¬ (sentLabel flush env st).rc.IsNegative := by
      apply hClean
      change _ ∈ st.calls ++ [sentLabel flush env st]
      simp
    have hBytes :=
      absorbedBytes_call st.calls hOk
    have hNone :
        ((sendCall flush env st).ret st.s.h).strm.nextIn =
          [] := hAbsorbed
    rw [hNone, List.append_nil] at hBytes
    refine ⟨?_, hInv.rest, fun hEnd => ?_⟩
    · change absorbedBytes
            (st.calls ++ [sentLabel flush env st]) ++ [] ++
          st.strm.nextIn = _
      rw [List.append_nil, ← hInv.input]
      exact congrArg (· ++ st.strm.nextIn) hBytes
    · exact zedcDeflate_streamEnd hEnd
  · cases hSend

/- The end of a round. -/
theorem hDeflateRoundEnd_allOut
    (hInv : Collected past offered st)
    (hEnd :
      hDeflateRoundEnd flush st = .inl (.streamEnd, st')) :
    AllOut st' := by
  have hFlushed := hInv.flushed
  unfold hDeflateRoundEnd at hEnd
  simp only at hEnd
  split at hEnd
  · cases hEnd
  · split at hEnd
    · rename_i hAll
      cases hEnd
      refine ⟨hFlushed.done hAll.2.1, hAll.2.2.2.1, ?_⟩
      rw [← List.length_eq_zero_iff, Obuf.length_waiting]
      exact hAll.2.2.2.2
    · split at hEnd <;> cases hEnd

theorem Collected.roundEnd
    (hInv : Collected past offered st) :
    Collected past offered
      (resultState (hDeflateRoundEnd flush st)) := by
  have hFlushed := hInv.flushed
  have hOutcome := hDeflateRoundEnd_outcome flush st
  generalize hDeflateRoundEnd flush st = result at *
  cases hOutcome with
  | ok _ => exact hFlushed
  | streamEnd => exact hFlushed
  | again _ _ => exact hFlushed

/- A round, unless it or a call that it makes has failed. -/
theorem Collected.round
    (hInv : Collected past offered st)
    (hOk :
      ∀ rc st', hDeflateRound flush env st = .inl (rc, st') →
        ¬ rc.IsNegative)
    (hClean :
      (resultState (hDeflateRound flush env st)).Clean) :
    Collected past offered
        (resultState (hDeflateRound flush env st)) ∧
      ∀ st',
        hDeflateRound flush env st =
            .inl (.streamEnd, st') →
          AllOut st' := by
  have hMid : Collected past offered (hDeflateCollect st) :=
    hInv.read.flushed
  have hOutcome := hDeflateRound_outcome flush env st
  generalize hResult : hDeflateRound flush env st = result
    at *
  generalize hSame : result = result' at hOutcome
  cases hOutcome with
  | full _ =>
      subst hSame
      exact ⟨hMid, fun st' hEnd => by cases hEnd⟩
  | kept _ _ _ =>
      subst hSame
      exact ⟨hMid.roundEnd, fun st' hEnd =>
        hDeflateRoundEnd_allOut hMid hEnd⟩
  | refused _ _ =>
      subst hSame
      exact absurd (by decide) (hOk _ _ rfl)
  | @sent st₁ _ hSend =>
      subst hSame
      have hCalls :=
        calls_hDeflateRoundEnd flush st₁
      have hSent := hMid.send hSend (by
        intro l hMem
        rw [← hCalls] at hMem
        exact hClean l hMem)
      exact ⟨hSent.roundEnd, fun st' hEnd =>
        hDeflateRoundEnd_allOut hSent hEnd⟩

/- All rounds of a call. -/
theorem Collected.loop
    {fuel : Nat}
    {env : Nat → DeflateEnv}
    (hInv : Collected past offered st)
    (hLoop :
      hDeflateLoop flush fuel env st = some (rc, st'))
    (hOk : ¬ rc.IsNegative)
    (hClean : st'.Clean) :
    Collected past offered st' ∧
      (rc = .streamEnd → AllOut st') := by
  induction fuel generalizing env st with
  | zero => cases hLoop
  | succ fuel ih =>
      unfold hDeflateLoop at hLoop
      cases hRound : hDeflateRound flush (env 0) st with
      | inl ret =>
          rw [hRound] at hLoop
          cases hLoop
          rcases hInv.round
              (fun rc₁ st₁ hEq => by
                rw [hRound] at hEq
                cases hEq
                exact hOk)
              (by rw [hRound]; exact hClean) with
            ⟨hNext, hAll⟩
          rw [hRound] at hNext
          refine ⟨hNext, fun hEnd => hAll st' ?_⟩
          rw [hRound, hEnd]
      | inr st₁ =>
          rw [hRound] at hLoop
          have hClean₁ : st₁.Clean := fun l hMem =>
            hClean l ((calls_hDeflateLoop hLoop).subset hMem)
          rcases hInv.round
              (fun rc₁ st₂ hEq => by
                rw [hRound] at hEq
                cases hEq)
              (by rw [hRound]; exact hClean₁) with
            ⟨hNext, _⟩
          rw [hRound] at hNext
          exact ih hNext hLoop

/- The caller sets up its stream for a call. -/
theorem Collected.offer
    (nextIn : List UInt8)
    (availOut : Nat)
    (hInv : Collected past offered st) :
    Collected
      (past ++
        offered.take
          (offered.length - st.strm.nextIn.length))
      nextIn
      { st with strm := st.strm.offer nextIn availOut } := by
  have hTaken :
      absorbedBytes st.calls ++ st.s.ibuf =
        past ++
          offered.take
            (offered.length - st.strm.nextIn.length) := by
    rcases hInv.rest with ⟨used, hUsed⟩
    have hInput := hInv.input
    rw [← hUsed, ← List.append_assoc] at hInput
    rw [← hUsed, List.length_append, Nat.add_sub_cancel,
      List.take_left]
    exact List.append_cancel_right hInput
  refine ⟨?_, List.suffix_refl _, hInv.done⟩
  rw [← hTaken]
  rfl

/- The call without an input buffer. -/
theorem Collected.direct
    (hInv : Collected past offered st)
    (hIbuf : st.s.ibuf = [])
    (hWaiting : st.s.obuf.waiting = [])
    (hClean : (hDeflateDirect flush env st).2.Clean) :
    Collected past offered (hDeflateDirect flush env st).2 ∧
      ((hDeflateDirect flush env st).1 = .streamEnd →
        AllOut (hDeflateDirect flush env st).2) := by
  generalize hStrm :
    ({ st.s.h with
        totalIn := st.strm.totalIn
        totalOut := st.strm.totalOut } : DeflStream) = h
  generalize hCall :
    (⟨st.strm.nextIn, st.strm.availOut, flush, env⟩ :
      DeflateCall) = c
  have hOk : ¬ (c.label h).rc.IsNegative := by
    apply hClean
    simp only [hDeflateDirect, hDeflateCall, hStrm, hCall]
    simp
  have hBytes :=
    absorbedBytes_call st.calls hOk
  have hNextIn : c.nextIn = st.strm.nextIn := by
    rw [← hCall]
  have hRest : (c.ret h).strm.nextIn <:+ c.nextIn :=
    ⟨_, zedcDeflate_absorbs (s :=
      { h with nextIn := c.nextIn, availOut := c.availOut })
      hOk⟩
  have hInput := hInv.input
  rw [hIbuf, List.append_nil] at hInput
  simp only [hDeflateDirect, hDeflateCall, hStrm, hCall]
  have hDone :
      (c.ret h).rc = .streamEnd →
        deflateDone (c.ret h).strm = true :=
    zedcDeflate_streamEnd
  refine ⟨⟨?_, ?_, hDone⟩, fun hEnd =>
    ⟨hDone hEnd, hIbuf, hWaiting⟩⟩
  · simp only [hIbuf, List.append_nil]
    rw [← hInput, ← hNextIn]
    exact hBytes
  · rw [hNextIn] at hRest
    exact hRest.trans hInv.rest

end Rounds

------------------------------------------------------------
-- Runs
------------------------------------------------------------

/-
  A call of `h_deflate` with what it has consumed, in which
  neither it nor `zedc_deflate` reports an error.
-/
def hDeflateMove
    (st : HDeflate)
    (event : HDeflateEvent)
    (st' : HDeflate) : Prop :=
  hDeflateStep st (event.call, event.rc) st' ∧
    event.consumed =
      event.call.nextIn.take
        (event.call.nextIn.length - st'.strm.nextIn.length)

/- The last call has returned `rc`. -/
def LastReturned
    (rc : Rc) (history : List HDeflateEvent) : Prop :=
  ∃ event ∈ history.getLast?, event.rc = rc

theorem lastReturned_append
    {rc : Rc}
    {history : List HDeflateEvent}
    {event : HDeflateEvent} :
    LastReturned rc (history ++ [event]) ↔
      event.rc = rc := by
  simp [LastReturned]

/- What holds between the calls. -/
structure HDeflateKept
    (h₀ : DeflStream)
    (history : List HDeflateEvent)
    (st : HDeflate) : Prop where
  inv : HDeflateInv h₀ st
  collected :
    ∃ past offered,
      Collected past offered st ∧
        consumedInput history =
          past ++
            offered.take
              (offered.length - st.strm.nextIn.length)
  ended : LastReturned .streamEnd history → AllOut st

section Runs

variable {h₀ : DeflStream} {st st' : HDeflate}
variable {history : List HDeflateEvent}
variable {event : HDeflateEvent}
variable {ibufTotal obufTotal : Nat}

theorem HDeflateKept.start
    (hReady : Ready h₀)
    (ibufTotal obufTotal : Nat) :
    HDeflateKept h₀ []
      (hDeflateInit h₀ ibufTotal obufTotal) := by
  refine ⟨hDeflateInit_inv hReady.fresh _ _,
    ⟨[], [], ⟨rfl, List.suffix_refl _, fun hEnd => ?_⟩, rfl⟩,
    fun hLast => ?_⟩
  · cases hEnd
  · rcases hLast with ⟨event, hMem, _⟩
    cases hMem

/- Every call keeps it. -/
theorem HDeflateKept.step
    (hKept : HDeflateKept h₀ history st)
    (hMove : hDeflateMove st event st') :
    HDeflateKept h₀ (history ++ [event]) st' := by
  rcases hMove with ⟨hStep, hConsumed⟩
  have hInv := hDeflateStep_inv hKept.inv hStep
  rcases hKept.collected with
    ⟨past, offered, hCollected, hPast⟩
  have hOffer := hCollected.offer event.call.nextIn
    event.call.availOut
  rw [← hPast] at hOffer
  have hBoth :
      Collected (consumedInput history) event.call.nextIn
          st' ∧
        (event.rc = .streamEnd → AllOut st') := by
    rcases hStep with ⟨hCall, hOk, hClean⟩
    unfold hDeflate at hCall
    by_cases hDirect : st.s.ibufTotal = 0
    · have hIbuf : st.s.ibuf = [] := by
        have hLen := hKept.inv.ibuf
        exact List.length_eq_zero_iff.mp (by omega)
      rw [if_pos hDirect] at hCall
      have hRet := Option.some.inj hCall
      have hState := congrArg Prod.snd hRet
      have hRc := congrArg Prod.fst hRet
      change _ = st' at hState
      change _ = event.rc at hRc
      rw [← hState] at hClean ⊢
      rw [← hRc]
      exact hOffer.direct hIbuf
        (hKept.inv.direct hDirect).2.2 hClean
    · rw [if_neg hDirect] at hCall
      refine Collected.loop ?_ hCall hOk hClean
      refine ⟨?_, ?_, hOffer.done⟩
      · unfold prepCrcOrAdler
        split <;> exact hOffer.input
      · unfold prepCrcOrAdler
        split <;> exact hOffer.rest
  refine ⟨hInv.1, ⟨_, _, hBoth.1, ?_⟩, fun hLast => ?_⟩
  · unfold consumedInput
    rw [List.flatMap_append, ← hConsumed]
    simp
  · exact hBoth.2 (lastReturned_append.mp hLast)

theorem hDeflateKept_of_run
    (hReady : Ready h₀)
    (hRun :
      Run hDeflateMove (hDeflateInit h₀ ibufTotal obufTotal)
        history st) :
    HDeflateKept h₀ history st :=
  hRun.invariant (HDeflateKept h₀)
    (HDeflateKept.start hReady _ _)
    (fun _ _ _ _ hKept hMove => hKept.step hMove)

/- All that was consumed is absorbed or in the buffer. -/
theorem HDeflateKept.consumed
    (hKept : HDeflateKept h₀ history st) :
    consumedInput history =
      absorbedBytes st.calls ++ st.s.ibuf := by
  rcases hKept.collected with
    ⟨past, offered, hCollected, hPast⟩
  rcases hCollected.rest with ⟨used, hUsed⟩
  have hInput := hCollected.input
  rw [hPast, ← hUsed, List.length_append,
    Nat.add_sub_cancel, List.take_left]
  rw [← hUsed, ← List.append_assoc] at hInput
  exact (List.append_cancel_right hInput).symm

/-
  With any buffer sizes, or none, and over any calls without
  errors: what the caller has and what waits in the buffers
  make the format header and a deflate stream of the input
  that was consumed, up to what waits in the input buffer.
  Once the end is returned nothing waits any more: the caller
  has the whole stream, trailer included, of all its input.
-/
theorem hDeflate_decodes
    (hReady : Ready h₀)
    (hLen : ∀ now, (formatHeader now h₀).length ≤ 255)
    (hRun :
      Run hDeflateMove (hDeflateInit h₀ ibufTotal obufTotal)
        history st)
    (hCard : ∀ l ∈ st.calls, ∀ ex, l.exchange = some ex →
      Compresses h₀.dynHuffmanSupported ex) :
    ∃ absorbed body d,
      consumedInput history = absorbed ++ st.s.ibuf ∧
        Reads (.start h₀.dictionary) body absorbed d ∧
        (st.s.h.eobAdded = false →
          bitsOf (st.strm.out ++ st.s.obuf.waiting ++
                st.s.h.outFifo.contents) ++
              (byteBits st.s.h.obyte).take st.s.h.onumbits =
            bitsOf (streamHeader h₀ st.calls) ++ body) ∧
        (st.s.h.eobAdded = true →
          d.mode = .done ∧
            ∃ pad, pad.length < 8 ∧
              bitsOf (st.strm.out ++ st.s.obuf.waiting ++
                  st.s.h.outFifo.contents) =
                bitsOf (streamHeader h₀ st.calls) ++
                  (body ++ pad) ++
                    bitsOf (streamTrailer h₀ st.calls)) ∧
        (LastReturned .streamEnd history →
          absorbed = consumedInput history ∧
            d.mode = .done ∧
            ∃ pad, pad.length < 8 ∧
              bitsOf st.strm.out =
                bitsOf (streamHeader h₀ st.calls) ++
                  (body ++ pad) ++
                    bitsOf (streamTrailer h₀ st.calls)) := by
  have hKept := hDeflateKept_of_run hReady hRun
  have hConsumed := hKept.consumed
  have hGiven := hKept.inv.delivered
  rcases meant_of_run hReady hLen hKept.inv.run hCard with
    ⟨hIn, d, hMeant⟩
  cases hEob : st.s.h.eobAdded with
  | false =>
      have hEmits := hIn.carries.emitted_eq
      rw [hEob, streamBits_eq, emitted, ← hGiven] at hEmits
      refine ⟨_, _, d, hConsumed, hMeant.reads,
        fun _ => hEmits, (fun hEnd => by cases hEnd),
        fun hLast => ?_⟩
      have hDone := (hKept.ended hLast).done
      unfold deflateDone at hDone
      rw [hEob] at hDone
      cases hDone
  | true =>
      rcases hMeant.ended hIn hEob with
        ⟨body, pad, d', hReads, hMode, hPad, hEmits⟩
      rw [← hGiven] at hEmits
      refine ⟨_, body, d', hConsumed, hReads,
        (fun hOpen => by cases hOpen),
        fun _ => ⟨hMode, pad, hPad, hEmits⟩,
        fun hLast => ?_⟩
      have hAll := hKept.ended hLast
      have hDrained : st.s.h.outFifo.contents = [] := by
        have hDone := hAll.done
        unfold deflateDone at hDone
        rw [Bool.and_eq_true, ZedcFifo.fifoEmpty_iff]
          at hDone
        exact hDone.2
      rw [hAll.waiting, hDrained, List.append_nil,
        List.append_nil] at hEmits
      refine ⟨?_, hMode, pad, hPad, hEmits⟩
      rw [hConsumed, hAll.ibuf, List.append_nil]

end Runs

------------------------------------------------------------
-- One Letter
------------------------------------------------------------

/- A letter is compressed, and the stream is finished. -/
def finishLetter : HDeflateCall where
  nextIn := [0x61]
  availOut := 64
  flush := .finish
  env := fun _ => letterCall.env

/- What the call returns and leaves. -/
def finishRet : Rc × HDeflate :=
  (hDeflate finishLetter.flush finishLetter.env
    { smallHw with
      strm :=
        smallHw.strm.offer finishLetter.nextIn
          finishLetter.availOut }).getD (.errno, smallHw)

def finishEvent : HDeflateEvent :=
  ⟨finishLetter, .streamEnd, [0x61]⟩

theorem run_finishLetter :
    Run hDeflateMove
      (hDeflateInit echoStream 4 (hDeflateBound 256 4))
      [finishEvent] finishRet.2 := by
  have hClean : finishRet.2.Clean := by
    unfold HDeflate.Clean
    decide
  exact Run.next Run.start ⟨⟨rfl, by decide, hClean⟩, rfl⟩

/- The card has one exchange, and it compresses. -/
theorem compresses_finishLetter :
    ∀ l ∈ finishRet.2.calls, ∀ ex, l.exchange = some ex →
      Compresses echoStream.dynHuffmanSupported ex := by
  intro l hl ex hEx
  have hCalls :
      finishRet.2.calls =
        [sentLabel .finish letterCall.env
          (hDeflateCollect
            { smallHw with
              strm :=
                prepCrcOrAdler
                  (smallHw.strm.offer [0x61] 64)
                  smallHw.s.h })] := rfl
  rw [hCalls, List.mem_singleton] at hl
  subst hl
  cases hEx
  refine ⟨?_, fun d hMode _ _ => ?_, List.nil_suffix⟩
  · show List.take 3 _ = List.take 3 _
    decide
  · exact ⟨_, reads_literal hMode (List.cons_ne_nil _ _)
      run_letter, rfl⟩

theorem hDeflate_decodes_letter :
    ∃ absorbed body d,
      Reads (.start echoStream.dictionary) body absorbed d ∧
        absorbed = consumedInput [finishEvent] ∧
        d.mode = .done ∧
        ∃ pad, pad.length < 8 ∧
          bitsOf finishRet.2.strm.out =
            bitsOf
                (streamHeader echoStream finishRet.2.calls) ++
              (body ++ pad) ++
                bitsOf
                  (streamTrailer echoStream
                    finishRet.2.calls) := by
  rcases hDeflate_decodes
      (Ready.init (DeflStream.zeroed .zlib true))
      (fun _ => by
        show (2 : Nat) ≤ 255
        decide)
      run_finishLetter compresses_finishLetter with
    ⟨absorbed, body, d, _, hReads, _, _, hEnd⟩
  rcases hEnd ⟨finishEvent, rfl, rfl⟩ with
    ⟨hAbsorbed, hMode, hBits⟩
  exact ⟨absorbed, body, d, hReads, hAbsorbed, hMode, hBits⟩

end Session
