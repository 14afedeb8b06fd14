import GenWqe.Hardware.Deflate

/-
  When a flush makes all input decodable, for calls of
  zedc_deflate and for calls of h_deflate, which collects
  input in a buffer and so may send none with the flush.

  Key definitions include:
    * `HFlushComplete`
    * `LeavesRoom`

  Main results:
    * `hDeflateLoop_flush`
    * `flush_complete_iff_input`
-/

------------------------------------------------------------
-- The Last Round
------------------------------------------------------------

namespace Hardware

open Zedc

/-
  All data has been given to the caller behind a flush marker:
  none is left in the stream, the input or the output buffer.
-/
structure HFlushComplete
    (h₀ : DeflStream) (flush : Flush) (st : HDeflate) :
    Prop where
  stream : FlushComplete h₀ st.calls flush st.s.h
  ibuf : st.s.ibuf = []
  obuf : st.s.obuf.waiting = []
  out : st.strm.out = st.s.h.nextOut

/-
  The output buffer is sized for the worst case, so that a
  request never comes close to filling it.
-/
def LeavesRoom (ex : DeflExchange) : Prop :=
  ex.resp.outpReturned.toNat + 64 ≤ ex.req.outBuffLen

/- Every exchange of the calls satisfies a condition. -/
def HDeflate.AllExchanges
    (st : HDeflate) (P : DeflExchange → Prop) : Prop :=
  ∀ l ∈ st.calls, ∀ ex, l.exchange = some ex → P ex

/-
  A flush call of the stream with enough space and room has
  space left behind it.
-/
theorem marker_call_availOut
    {s₀ s s' : DeflStream}
    {trace : List DeflateLabel}
    {l : DeflateLabel}
    (hIn : InStep s₀ trace s)
    (hLen : ∀ now, (formatHeader now s₀).length ≤ 255)
    (hStep : deflateStep s l s')
    (hMarker : l.call.flush.writesMarker = true)
    (hSpace : 256 ≤ l.call.availOut)
    (hRoom : ∀ ex, l.exchange = some ex → LeavesRoom ex) :
    s'.availOut ≠ 0 := by
  rcases hIn.marker_call hLen hStep hMarker with
    hNone | hOne
  · have hAvail := hNone.availOut
    omega
  · rcases hOne.exchange with ⟨ex, hSome, hLeft⟩
    have hFits := hRoom ex hSome
    unfold LeavesRoom at hFits
    omega

/- What was sent last, by what was in the input buffer. -/
theorem SentTo.flush_iff
    {h₀ : DeflStream}
    {flush : Flush}
    {env : DeflateEnv}
    {st st' : HDeflate}
    (hSent : SentTo h₀ flush env st st')
    (hReady : Ready h₀)
    (hLen : ∀ now, (formatHeader now h₀).length ≤ 255)
    (hInv : HDeflateInv h₀ st)
    (hObuf : 256 ≤ st.s.obuf.total)
    (hMarker : flush.writesMarker = true)
    (hClean : st'.Clean)
    (hHonest : st'.AllExchanges
      (PrependsIbits h₀.dynHuffmanSupported))
    (hRoom : st'.AllExchanges LeavesRoom)
    (hConsumed : st.strm.nextIn = [])
    (hAbsorbed : st'.s.h.nextIn = []) :
    FlushComplete h₀ st'.calls flush st'.s.h ↔
      st.s.ibuf ≠ [] ∨
        EndsWithMarker h₀ st.calls flush st.s.h := by
  unfold HDeflate.AllExchanges at hHonest hRoom
  unfold HDeflate.Clean at hClean
  rw [hSent.calls] at hHonest hRoom hClean ⊢
  have hOk :
      ¬ (sentLabel flush env st).rc.IsNegative :=
    hClean _ (by simp)
  have hStep := deflateStep_sentLabel hOk
  rw [← hSent.h] at hStep
  have hFlush :
      (sentLabel flush env st).call.flush = flush := by
    simp [sentLabel, sendCall, DeflateCall.label, hConsumed]
  have hMarker' :
      (sentLabel flush env st).call.flush.writesMarker =
        true := by
    rw [hFlush]
    exact hMarker
  have hIn := inStep_of_run hReady.fresh hLen hInv.run
    (fun l hl => hHonest l (List.mem_append_left _ hl))
  have hAvail := marker_call_availOut hIn hLen hStep hMarker'
    hObuf (hRoom _ (by simp))
  have hIff := flushComplete_iff hReady hLen hInv.run hStep
    hHonest hMarker' hAvail hAbsorbed
  rw [hFlush] at hIff
  exact hIff

/-
  The round in which a flush call returns with all input
  consumed and space left has sent what was collected.
-/
theorem hDeflateRound_flush_sent
    {h₀ : DeflStream}
    {flush : Flush}
    {env : DeflateEnv}
    {st st' : HDeflate}
    (hInv : HDeflateInv h₀ st)
    (hBuffered : st.s.ibufTotal ≠ 0)
    (hMarker : flush.writesMarker = true)
    (hRound :
      hDeflateRound flush env st = .inl (.ok, st'))
    (hSpace : st'.strm.availOut ≠ 0) :
    ∃ sent,
      SentTo h₀ flush env (hDeflateCollect st) sent ∧
      sent.s.h.nextIn = [] ∧
      sent.s.ibuf = [] ∧
      st' = hDeflateFlushObuf sent := by
  rcases hDeflateCollect_spec hInv hBuffered with
    ⟨hMid, hSame, _, hEmpty⟩
  have hBuffered' :
      (hDeflateCollect st).s.ibufTotal ≠ 0 := by
    rwa [hSame.ibufTotal]
  have hOutcome := hDeflateRound_outcome flush env st
  rw [hRound] at hOutcome
  generalize hResult :
    (Sum.inl (.ok, st') : Sum (Rc × HDeflate) HDeflate) =
      result at hOutcome
  cases hOutcome with
  | full hFull =>
      cases hResult
      exact absurd hFull hSpace
  | kept _ hNo _ =>
      rw [hNo] at hMarker
      cases hMarker
  | refused _ _ => cases hResult
  | @sent sent hSpace' hSend =>
      have hSends := hDeflateSend_spec flush env hMid
        hBuffered' (hEmpty hSpace')
      rw [hSend] at hSends
      rcases hSends with
        ⟨_, hEq, _⟩ | ⟨_, hEq, hSent, hAbsorbed, hIbuf, _⟩
      · cases hEq
      · injection hEq with hEq
        subst hEq
        refine ⟨sent, hSent, hAbsorbed, hIbuf, ?_⟩
        have hEnd := hDeflateRoundEnd_outcome flush sent
        rw [← hResult] at hEnd
        cases hEnd with
        | ok _ => rfl

/-
  The last round of a flush call: what it gave out is complete
  if and only if there was input, or nothing was to be done.
-/
theorem hDeflateRound_flush
    {h₀ : DeflStream}
    {flush : Flush}
    {env : DeflateEnv}
    {st st' : HDeflate}
    (hReady : Ready h₀)
    (hLen : ∀ now, (formatHeader now h₀).length ≤ 255)
    (hInv : HDeflateInv h₀ st)
    (hBuffered : st.s.ibufTotal ≠ 0)
    (hObuf : 256 ≤ st.s.obuf.total)
    (hMarker : flush.writesMarker = true)
    (hRound :
      hDeflateRound flush env st = .inl (.ok, st'))
    (hClean : st'.Clean)
    (hHonest : st'.AllExchanges
      (PrependsIbits h₀.dynHuffmanSupported))
    (hRoom : st'.AllExchanges LeavesRoom)
    (hSpace : st'.strm.availOut ≠ 0)
    (hConsumed : st'.strm.nextIn = []) :
    HFlushComplete h₀ flush st' ↔
      (st.s.ibuf ++ st.strm.nextIn) ≠ [] ∨
        EndsWithMarker h₀ st.calls flush st.s.h := by
  rcases hDeflateCollect_spec hInv hBuffered with
    ⟨hMid, hSame, hMoved, _⟩
  rcases hDeflateRound_flush_sent hInv hBuffered hMarker
      hRound hSpace with
    ⟨sent, hSent, hAbsorbed, hIbuf, hEnd⟩
  subst hEnd
  have hBehind := hDeflateFlushObuf_same sent
  unfold HDeflate.Clean at hClean
  unfold HDeflate.AllExchanges at hHonest hRoom
  rw [hBehind.calls] at hClean hHonest hRoom
  have hInvSent := hSent.keeps.inv hClean
  rcases hDeflateFlushObuf_spec hInvSent
      (by rwa [hSent.ibufTotal, hSame.ibufTotal]) with
    ⟨hInv', _, hIbuf', hNextIn, hWaiting⟩
  rw [hNextIn, hSent.nextIn] at hConsumed
  rw [hConsumed, List.append_nil] at hMoved
  have hIff := hSent.flush_iff hReady hLen hMid
    (by rwa [hSame.obufTotal]) hMarker hClean hHonest hRoom
    hConsumed hAbsorbed
  rw [hSame.calls, hSame.h, hMoved] at hIff
  rw [← hIff, ← hBehind.calls, ← hBehind.h]
  constructor
  · exact fun hComplete => hComplete.stream
  · intro hStream
    have hDelivered := hInv'.delivered
    rw [hWaiting hSpace, List.append_nil] at hDelivered
    exact ⟨hStream, by rw [hIbuf', hIbuf],
      hWaiting hSpace, hDelivered⟩

/- The same for all rounds of a call together. -/
theorem hDeflateLoop_flush
    {h₀ : DeflStream}
    {flush : Flush}
    {fuel : Nat}
    {env : Nat → DeflateEnv}
    {st st' : HDeflate}
    (hReady : Ready h₀)
    (hLen : ∀ now, (formatHeader now h₀).length ≤ 255)
    (hInv : HDeflateInv h₀ st)
    (hBuffered : st.s.ibufTotal ≠ 0)
    (hObuf : 256 ≤ st.s.obuf.total)
    (hMarker : flush.writesMarker = true)
    (hLoop :
      hDeflateLoop flush fuel env st = some (.ok, st'))
    (hClean : st'.Clean)
    (hHonest : st'.AllExchanges
      (PrependsIbits h₀.dynHuffmanSupported))
    (hRoom : st'.AllExchanges LeavesRoom)
    (hSpace : st'.strm.availOut ≠ 0)
    (hConsumed : st'.strm.nextIn = []) :
    HFlushComplete h₀ flush st' ↔
      (st.s.ibuf ++ st.strm.nextIn) ≠ [] ∨
        EndsWithMarker h₀ st.calls flush st.s.h := by
  induction fuel generalizing env st with
  | zero => cases hLoop
  | succ fuel ih =>
      have hKeeps :=
        hDeflateRound_keeps flush (env 0) hInv hBuffered
      unfold hDeflateLoop at hLoop
      cases hResult : hDeflateRound flush (env 0) st with
      | inl ret =>
          rw [hResult] at hLoop
          simp only [Option.some.injEq] at hLoop
          subst hLoop
          exact hDeflateRound_flush hReady hLen hInv
            hBuffered hObuf hMarker hResult hClean hHonest
            hRoom hSpace hConsumed
      | inr st₁ =>
          -- both sides hold: there was input in this call
          rw [hResult] at hLoop hKeeps
          rcases hDeflateRound_again hResult with
            ⟨_, _, hLeft, hLe, _⟩
          have hClean₁ : st₁.Clean := fun l hl =>
            hClean l ((calls_hDeflateLoop hLoop).subset hl)
          have hNext := ih (hKeeps.inv hClean₁)
            (by rwa [hKeeps.ibufTotal])
            (by rwa [hKeeps.obufTotal]) hLoop
          have hInput : st.strm.nextIn ≠ [] := by
            intro hNil
            rw [hNil] at hLe
            exact hLeft
              (List.length_eq_zero_iff.mp
                (Nat.le_zero.mp hLe))
          refine iff_of_true (hNext.mpr (Or.inl ?_))
            (Or.inl ?_)
          · exact fun hNil =>
              hLeft (List.append_eq_nil_iff.mp hNil).2
          · exact fun hNil =>
              hInput (List.append_eq_nil_iff.mp hNil).2

/- A flush call of h_deflate that returns Z_OK. -/
theorem hDeflateStep_flush
    {h₀ : DeflStream}
    {st st' : HDeflate}
    {c : HDeflateCall}
    (hReady : Ready h₀)
    (hLen : ∀ now, (formatHeader now h₀).length ≤ 255)
    (hInv : HDeflateInv h₀ st)
    (hStep : hDeflateStep st (c, .ok) st')
    (hMarker : c.flush.writesMarker = true)
    (hHonest : st'.AllExchanges
      (PrependsIbits h₀.dynHuffmanSupported))
    (hObuf : st.s.ibufTotal ≠ 0 →
      256 ≤ st.s.obuf.total ∧ st'.AllExchanges LeavesRoom)
    (hSpace : st'.strm.availOut ≠ 0)
    (hConsumed : st'.strm.nextIn = []) :
    HFlushComplete h₀ c.flush st' ↔
      c.nextIn ≠ [] ∨ st.s.ibuf ≠ [] ∨
        EndsWithMarker h₀ st.calls c.flush st.s.h := by
  rcases hStep with ⟨hCall, _, hClean⟩
  have hOffered := hInv.offer c.nextIn c.availOut
  unfold hDeflate at hCall
  by_cases hDirect : st.s.ibufTotal = 0
  · simp only [hDirect, if_true, Option.some.injEq] at hCall
    have hState := congrArg Prod.snd hCall
    have hRc := congrArg Prod.fst hCall
    simp only at hState hRc
    subst hState
    rcases hDeflateDirect_spec _ _ hOffered hDirect hClean
      with ⟨hInv', l, hStep, hLabel, _, hCalls⟩
    have hIbuf : st.s.ibuf = [] := by
      have hSum := hInv.ibuf
      exact List.length_eq_zero_iff.mp (by omega)
    unfold HDeflate.AllExchanges at hHonest
    rw [hCalls] at hHonest
    have hFlush : l.call.flush = c.flush := by rw [hLabel]
    have hIff := flushComplete_iff hReady hLen hInv.run hStep
      hHonest (by rw [hFlush]; exact hMarker) hSpace
      hConsumed
    rw [hFlush, hLabel] at hIff
    have hDelivered := hInv'.delivered
    rcases hInv'.direct hDirect with ⟨_, _, hWaiting⟩
    rw [hWaiting, List.append_nil] at hDelivered
    have hWhole :
        HFlushComplete h₀ c.flush
            (hDeflateDirect c.flush (c.env 0)
              { st with
                strm :=
                  st.strm.offer c.nextIn c.availOut }).2 ↔
          FlushComplete h₀ (st.calls ++ [l]) c.flush
            (hDeflateDirect c.flush (c.env 0)
              { st with
                strm :=
                  st.strm.offer c.nextIn c.availOut }).2.s.h
        := by
      constructor
      · intro hComplete
        have hStream := hComplete.stream
        rw [hCalls] at hStream
        exact hStream
      · intro hStream
        refine ⟨?_, hIbuf, hWaiting, hDelivered⟩
        rw [hCalls]
        exact hStream
    rw [hWhole, hIff]
    simp only [hIbuf, ne_eq, not_true_eq_false, false_or]
    rfl
  · simp only [hDirect, if_false] at hCall
    rcases hObuf hDirect with ⟨hTotal, hRoom⟩
    have hPrep :
        HDeflateInv h₀
          { st with
            strm :=
              prepCrcOrAdler
                (st.strm.offer c.nextIn c.availOut)
                st.s.h } := by
      unfold prepCrcOrAdler
      split
      · exact ⟨hOffered.run, hOffered.delivered,
          hOffered.nextOut, hOffered.ibuf, hOffered.direct⟩
      · exact hOffered
    have hIff := hDeflateLoop_flush hReady hLen hPrep hDirect
      hTotal hMarker hCall hClean hHonest hRoom hSpace
      hConsumed
    have hNextIn :
        (prepCrcOrAdler
          (st.strm.offer c.nextIn c.availOut)
          st.s.h).nextIn = c.nextIn := by
      unfold prepCrcOrAdler
      split <;> rfl
    simp only [hNextIn] at hIff
    rw [hIff, Ne, List.append_eq_nil_iff]
    tauto

/- The invariant holds along every run from the start. -/
theorem hDeflateInv_of_run
    {h₀ : DeflStream}
    {ibufTotal obufTotal : Nat}
    {history : List (HDeflateCall × Rc)}
    {st : HDeflate}
    (hFresh : Fresh h₀)
    (hRun :
      Run hDeflateStep (hDeflateInit h₀ ibufTotal obufTotal)
        history st) :
    HDeflateInv h₀ st ∧
      st.s.ibufTotal = ibufTotal ∧
      st.s.obuf.total = obufTotal := by
  apply hRun.preserves
    (fun st => HDeflateInv h₀ st ∧
      st.s.ibufTotal = ibufTotal ∧
      st.s.obuf.total = obufTotal)
  · exact ⟨hDeflateInit_inv hFresh _ _, rfl, rfl⟩
  · rintro st l st' ⟨hInv, hIbuf, hObuf⟩ hStep
    rcases hDeflateStep_inv hInv hStep with
      ⟨hInv', hIbuf', hObuf'⟩
    exact ⟨hInv', hIbuf'.trans hIbuf, hObuf'.trans hObuf⟩

/-
  In every run without errors, a flush call that returns Z_OK
  with all input consumed and space left has made everything
  decodable if and only if it brought input, input waited in
  the buffer, or the unfinished stream ended with a marker
  already (and, for a full flush, had no dictionary).
-/
theorem flush_complete_iff_input
    {h₀ : DeflStream}
    (hReady : Ready h₀)
    (hLen : ∀ now, (formatHeader now h₀).length ≤ 255) :
    (∀ (trace : List DeflateLabel) (s s' : DeflStream)
        (l : DeflateLabel),
      Run deflateStep h₀ trace s →
      deflateStep s l s' →
      (∀ l' ∈ trace ++ [l], ∀ ex, l'.exchange = some ex →
        PrependsIbits h₀.dynHuffmanSupported ex) →
      l.call.flush.writesMarker = true →
      l.rc = .ok →
      s'.availOut ≠ 0 →
      s'.nextIn = [] →
      (FlushComplete h₀ (trace ++ [l]) l.call.flush s' ↔
        l.call.nextIn ≠ [] ∨
          EndsWithMarker h₀ trace l.call.flush s)) ∧
    (∀ (ibufTotal obufTotal : Nat)
        (history : List (HDeflateCall × Rc))
        (st st' : HDeflate) (c : HDeflateCall),
      Run hDeflateStep (hDeflateInit h₀ ibufTotal obufTotal)
        history st →
      hDeflateStep st (c, .ok) st' →
      st'.AllExchanges
        (PrependsIbits h₀.dynHuffmanSupported) →
      (ibufTotal ≠ 0 →
        256 ≤ obufTotal ∧ st'.AllExchanges LeavesRoom) →
      c.flush.writesMarker = true →
      st'.strm.availOut ≠ 0 →
      st'.strm.nextIn = [] →
      (HFlushComplete h₀ c.flush st' ↔
        c.nextIn ≠ [] ∨ st.s.ibuf ≠ [] ∨
          EndsWithMarker h₀ st.calls c.flush st.s.h)) := by
  constructor
  · intro trace s s' l hRun hStep hHonest hMarker _ hSpace
      hConsumed
    exact flushComplete_iff hReady hLen hRun hStep hHonest
      hMarker hSpace hConsumed
  · intro ibufTotal obufTotal history st st' c hRun hStep
      hHonest hObuf hMarker hSpace hConsumed
    rcases hDeflateInv_of_run hReady.fresh hRun with
      ⟨hInv, hIbufTotal, hObufTotal⟩
    exact hDeflateStep_flush hReady hLen hInv hStep hMarker
      hHonest (by rw [hIbufTotal, hObufTotal]; exact hObuf)
      hSpace hConsumed

------------------------------------------------------------
-- A Flush without Input
------------------------------------------------------------

/- One byte compressed without a flush. -/
def echoDataCall : DeflateCall :=
  { echoCall with flush := .noFlush }

/- A flush that brings no further input. -/
def echoFlushCall : DeflateCall :=
  { echoCall with nextIn := [] }

/- The stream between the two. -/
def echoMidStream : DeflStream :=
  (echoDataCall.ret echoStream).strm

theorem late_flush_incomplete :
    Run deflateStep echoStream
        [echoDataCall.label echoStream] echoMidStream ∧
    deflateStep echoMidStream
        (echoFlushCall.label echoMidStream)
        (echoFlushCall.ret echoMidStream).strm ∧
    (echoFlushCall.label echoMidStream).rc = .ok ∧
    (echoFlushCall.ret echoMidStream).strm.nextIn = [] ∧
    (echoFlushCall.ret echoMidStream).strm.availOut ≠ 0 ∧
    ¬ FlushComplete echoStream
        ([echoDataCall.label echoStream] ++
          [echoFlushCall.label echoMidStream])
        .syncFlush
        (echoFlushCall.ret echoMidStream).strm := by
  refine ⟨Run.next Run.start ⟨rfl, by decide⟩,
    ⟨rfl, by decide⟩, by decide, by decide, by decide, ?_⟩
  intro hComplete
  rcases hComplete.marker with ⟨pieces, hPieces, _⟩
  have hLast := congrArg List.getLast? hPieces
  rw [List.getLast?_concat] at hLast
  revert hLast
  decide

/- A buffered stream and a flush of one byte on it. -/
def echoHw : HDeflate := hDeflateInit echoStream 4 512

def echoHwCall : HDeflateCall where
  nextIn := [0x61]
  availOut := 64
  flush := .syncFlush
  env := fun _ => echoCall.env

/- What the call leaves. -/
def echoHwAfter : HDeflate :=
  ((hDeflate echoHwCall.flush echoHwCall.env
    { echoHw with
      strm :=
        echoHw.strm.offer echoHwCall.nextIn
          echoHwCall.availOut }).getD (.ok, echoHw)).2

theorem flush_complete_echo :
    FlushComplete echoStream
        ([] ++ [echoCall.label echoStream])
        .syncFlush (echoCall.ret echoStream).strm ∧
      HFlushComplete echoStream .syncFlush echoHwAfter := by
  have hBoth := flush_complete_iff_input
    (Ready.init (DeflStream.zeroed .zlib true))
    (fun _ => by
      show (2 : Nat) ≤ 255
      decide)
  constructor
  · apply (hBoth.1 [] echoStream _ _ Run.start
      ⟨rfl, by decide⟩ _ rfl (by decide) (by decide)
      (by decide)).mpr
    · exact Or.inl (by decide)
    · intro l hl ex hEx
      rw [List.nil_append, List.mem_singleton] at hl
      subst hl
      cases hEx
      show List.take 3 _ = List.take 3 _
      decide
  · have hCalls :
        echoHwAfter.calls =
          [sentLabel .syncFlush echoCall.env
            (hDeflateCollect { echoHw with
              strm := echoHw.strm.offer [0x61] 64 })] := by
      rfl
    have hClean : echoHwAfter.Clean := by
      intro l hl
      rw [hCalls, List.mem_singleton] at hl
      subst hl
      decide
    have hHonest :
        echoHwAfter.AllExchanges (PrependsIbits true) := by
      intro l hl ex hEx
      rw [hCalls, List.mem_singleton] at hl
      subst hl
      cases hEx
      show List.take 3 _ = List.take 3 _
      decide
    have hRoom : echoHwAfter.AllExchanges LeavesRoom := by
      intro l hl ex hEx
      rw [hCalls, List.mem_singleton] at hl
      subst hl
      cases hEx
      show _ + 64 ≤ _
      decide
    apply (hBoth.2 4 512 [] echoHw echoHwAfter echoHwCall
      Run.start ⟨rfl, by decide, hClean⟩ hHonest
      (fun _ => ⟨by decide, hRoom⟩) rfl
      (by decide) (by decide)).mpr
    exact Or.inl (by decide)

end Hardware
