import GenWqe.Session.Twins

/-
  `h_deflateReset`: from any state a stream goes on like one
  that was newly set up.

  Key definitions include:
    * `SetUpAs`
    * `SameSizes`

  Main results:
    * `zedcDeflate_setUpAs`
    * `hDeflateRun_kept`
    * `hDeflateReset_like_new`
-/

------------------------------------------------------------
-- What a Stream Was Set Up With
------------------------------------------------------------

namespace Session

open Zedc Hardware

/- The options and the format, which no call changes. -/
structure SetUpAs
    (cfg : DeflateConfig) (format : Format) (s : DeflStream) :
    Prop where
  format : s.format = format
  dynHuffman :
    s.dynHuffmanSupported = cfg.dynHuffmanSupported
  strategyFixed : s.strategyFixed = cfg.strategyFixed
  flgCrossCheck : s.flgCrossCheck = cfg.flgCrossCheck
  flgSkipLastDict : s.flgSkipLastDict = cfg.flgSkipLastDict

section SetUp

variable {cfg : DeflateConfig} {format : Format}
variable {s s' : DeflStream}

/- What leaves the input side alone keeps them. -/
theorem SetUpAs.of_inputSide
    (hSetUp : SetUpAs cfg format s)
    (hSide : s'.inputSide = s.inputSide) :
    SetUpAs cfg format s' :=
  ⟨((congrArg DeflStream.format hSide :)).trans
      hSetUp.format,
    ((congrArg DeflStream.dynHuffmanSupported hSide :)).trans
      hSetUp.dynHuffman,
    ((congrArg DeflStream.strategyFixed hSide :)).trans
      hSetUp.strategyFixed,
    ((congrArg DeflStream.flgCrossCheck hSide :)).trans
      hSetUp.flgCrossCheck,
    ((congrArg DeflStream.flgSkipLastDict hSide :)).trans
      hSetUp.flgSkipLastDict⟩

/- The header is written with them. -/
theorem SetUpAs.addHeader
    (hSetUp : SetUpAs cfg format s) (now : UInt32) :
    SetUpAs cfg format (deflateAddHeader now s).2 := by
  rcases hSetUp with ⟨hFormat, hDyn, hFixed, hCheck, hSkip⟩
  unfold deflateAddHeader
  split
  · exact ⟨hFormat, hDyn, hFixed, hCheck, hSkip⟩
  · split
    · exact ⟨hFormat, hDyn, hFixed, hCheck, hSkip⟩
    · split <;>
        exact ⟨hFormat, hDyn, hFixed, hCheck, hSkip⟩
  · exact ⟨hFormat, hDyn, hFixed, hCheck, hSkip⟩

/- In front of a DDCB they are not changed. -/
theorem SetUpAs.prepare
    (hSetUp : SetUpAs cfg format s)
    (flush : Flush)
    (now : UInt32) :
    SetUpAs cfg format
      (preparedStrm (deflatePrepare flush now s)) := by
  have hHeader :
      SetUpAs cfg format
        (if s.headerAdded then (false, s)
          else deflateAddHeader now s).2 := by
    split
    · exact hSetUp
    · exact hSetUp.addHeader now
  unfold deflatePrepare
  generalize
    (if s.headerAdded then (false, s)
      else deflateAddHeader now s) = added at *
  rcases added with ⟨_ | _, s₁⟩
  · have hDrained : SetUpAs cfg format
        (deflateWriteOutFifo s₁) :=
      hHeader.of_inputSide (inputSide_deflateWriteOutFifo s₁)
    simp only
    unfold deflatePrepareDrained
    split
    · exact hDrained
    · rw [deflateExits_strm]
      split
      · exact hDrained.of_inputSide
          (inputSide_deflateFinish _)
      · exact hDrained
  · exact hHeader

/- Nor are they by its results. -/
theorem SetUpAs.processResults
    (hSetUp : SetUpAs cfg format s) (resp : DeflResp) :
    SetUpAs cfg format (deflateProcessResults resp s).2 := by
  unfold deflateProcessResults
  simp only
  split_ifs <;> exact { hSetUp with }

/- A DDCB, and the flush behind it. -/
theorem SetUpAs.submit
    (hSetUp : SetUpAs cfg format s)
    (flush : Flush)
    (env : DeflateEnv) :
    SetUpAs cfg format (deflateSubmit flush env s).strm := by
  have hExecuted :
      ∀ {found : Option DeflExchange} {s₁ : DeflStream},
        deflateExecute flush env s = (found, s₁) →
          SetUpAs cfg format s₁ := by
    intro found s₁ hExec
    rcases (deflateExecute_spec hExec).1 with ⟨dict, rfl⟩
    exact { hSetUp with }
  have hOutcome := deflateSubmit_outcome flush env s
  generalize deflateSubmit flush env s = ret at *
  cases hOutcome with
  | failed hExec => exact hExecuted hExec
  | badOffset hExec _ =>
      exact { hExecuted hExec with }
  | @refused ex s₁ s₂ rc hExec _ hResults _ =>
      have hTaken :
          SetUpAs cfg format (deflateTakeAsv ex.resp s₁) :=
        { hExecuted hExec with }
      have hKept := hTaken.processResults ex.resp
      rw [hResults] at hKept
      exact hKept
  | @accepted ex s₁ s₂ hExec _ hResults =>
      have hTaken :
          SetUpAs cfg format (deflateTakeAsv ex.resp s₁) :=
        { hExecuted hExec with }
      have hKept := hTaken.processResults ex.resp
      rw [hResults] at hKept
      have hSide := inputSide_deflateFlush flush s₂
      exact
        ⟨((congrArg DeflStream.format hSide :)).trans
            hKept.format,
          ((congrArg DeflStream.dynHuffmanSupported
            hSide :)).trans hKept.dynHuffman,
          ((congrArg DeflStream.strategyFixed hSide :)).trans
            hKept.strategyFixed,
          ((congrArg DeflStream.flgCrossCheck hSide :)).trans
            hKept.flgCrossCheck,
          (flgSkipLastDict_deflateFlush flush s₂).trans
            hKept.flgSkipLastDict⟩

/- A call of `zedc_deflate` keeps the options. -/
theorem zedcDeflate_setUpAs
    (hSetUp : SetUpAs cfg format s)
    (flush : Flush)
    (env : DeflateEnv) :
    SetUpAs cfg format (zedcDeflate flush env s).strm := by
  have hPrepared := hSetUp.prepare flush env.now
  unfold zedcDeflate
  cases hPrepare : deflatePrepare flush env.now s with
  | inl result =>
      rw [hPrepare] at hPrepared
      exact hPrepared
  | inr s₁ =>
      rw [hPrepare] at hPrepared
      exact hPrepared.submit flush env

/- A stream next to itself. -/
def SetUpTwice
    (cfg : DeflateConfig) (format : Format)
    (h k : DeflStream) : Prop :=
  k = h ∧ SetUpAs cfg format h

/-
  A stream goes along with itself for as long as it keeps
  them, so that the rules for two streams say what one does.
-/
theorem setUpTwice_tandem :
    Tandem (fun _ => True) (SetUpTwice cfg format) := by
  constructor
  · rintro h k ⟨rfl, _⟩
    exact ⟨rfl, rfl, rfl, rfl, rfl⟩
  · rintro h k totalIn totalOut ⟨rfl, hSetUp⟩
    exact ⟨rfl, { hSetUp with }⟩
  · rintro c h k _ ⟨rfl, hSetUp⟩
    have hOffered :
        SetUpAs cfg format (offerDeflate c k) :=
      { hSetUp with }
    exact ⟨rfl, rfl, rfl, rfl, rfl,
      zedcDeflate_setUpAs hOffered c.flush c.env⟩

/- The calls that set something up keep them too. -/
theorem setUpTwice_setUp :
    SetUpTogether (SetUpTwice cfg format) := by
  constructor
  · rintro h k dictionary ⟨rfl, hSetUp⟩
    refine ⟨rfl, rfl, rfl, ?_⟩
    unfold deflateSetDictionary zedcDeflateSetDictionary
    split
    · exact hSetUp
    · split
      · exact hSetUp
      · exact { hSetUp with }
  · rintro h k head ⟨rfl, hSetUp⟩
    exact ⟨rfl, { hSetUp with }⟩
  · rintro h k ⟨rfl, hSetUp⟩
    exact ⟨rfl, { hSetUp with }⟩

end SetUp

------------------------------------------------------------
-- The Sizes of the Buffers
------------------------------------------------------------

/- Both buffers keep their sizes. -/
structure SameSizes (st st' : HDeflate) : Prop where
  ibufTotal : st'.s.ibufTotal = st.s.ibufTotal
  obufTotal : st'.s.obuf.total = st.s.obuf.total

section Sizes

variable {st st' st'' : HDeflate}

/- One call after the other. -/
theorem SameSizes.trans
    (hFirst : SameSizes st st')
    (hNext : SameSizes st' st'') :
    SameSizes st st'' :=
  ⟨hNext.ibufTotal.trans hFirst.ibufTotal,
    hNext.obufTotal.trans hFirst.obufTotal⟩

/- First `obuf` is flushed. -/
theorem hDeflateFlushObuf_sizes (st : HDeflate) :
    SameSizes st (hDeflateFlushObuf st) :=
  ⟨(hDeflateFlushObuf_same st).ibufTotal,
    (hDeflateFlushObuf_same st).obufTotal⟩

/- Input is collected. -/
theorem hDeflateCollect_sizes (st : HDeflate) :
    SameSizes st (hDeflateCollect st) := by
  have hRead : SameSizes st (hReadIbuf st) := by
    unfold hReadIbuf
    split <;> exact ⟨rfl, rfl⟩
  exact hRead.trans (hDeflateFlushObuf_sizes _)

/- It is sent to the card. -/
theorem hDeflateSend_sizes
    (flush : Flush) (env : DeflateEnv) (st : HDeflate) :
    SameSizes st
      (resultState (hDeflateSend flush env st)) := by
  unfold hDeflateSend
  simp only
  split <;> exact ⟨rfl, rfl⟩

/- A round ends. -/
theorem hDeflateRoundEnd_sizes
    (flush : Flush) (st : HDeflate) :
    SameSizes st
      (resultState (hDeflateRoundEnd flush st)) := by
  have hFlushed := hDeflateFlushObuf_sizes st
  have hOutcome := hDeflateRoundEnd_outcome flush st
  generalize hDeflateRoundEnd flush st = result at *
  cases hOutcome <;> exact hFlushed

/- A round as a whole. -/
theorem hDeflateRound_sizes
    (flush : Flush) (env : DeflateEnv) (st : HDeflate) :
    SameSizes st
      (resultState (hDeflateRound flush env st)) := by
  have hCollected := hDeflateCollect_sizes st
  have hSend :=
    hDeflateSend_sizes flush env (hDeflateCollect st)
  have hOutcome := hDeflateRound_outcome flush env st
  generalize hDeflateRound flush env st = result at *
  cases hOutcome with
  | full _ => exact hCollected
  | kept _ _ _ =>
      exact hCollected.trans (hDeflateRoundEnd_sizes _ _)
  | refused _ hSent =>
      rw [hSent] at hSend
      exact hCollected.trans hSend
  | @sent st' _ hSent =>
      rw [hSent] at hSend
      have hBefore : SameSizes st st' :=
        hCollected.trans hSend
      exact hBefore.trans (hDeflateRoundEnd_sizes _ _)

/- The loop, by induction on its fuel. -/
theorem hDeflateLoop_sizes
    {flush : Flush}
    {fuel : Nat}
    {env : Nat → DeflateEnv}
    {ret : Rc × HDeflate}
    (hLoop : hDeflateLoop flush fuel env st = some ret) :
    SameSizes st ret.2 := by
  induction fuel generalizing env st with
  | zero => cases hLoop
  | succ fuel ih =>
      have hRound := hDeflateRound_sizes flush (env 0) st
      unfold hDeflateLoop at hLoop
      cases hResult : hDeflateRound flush (env 0) st with
      | inl done =>
          rw [hResult] at hLoop hRound
          cases hLoop
          exact hRound
      | inr st₁ =>
          rw [hResult] at hLoop hRound
          have hBefore : SameSizes st st₁ := hRound
          exact hBefore.trans (ih hLoop)

/- Every call keeps the sizes of the buffers. -/
theorem hDeflateOp_sizes
    {l : HDeflateOp × Rc}
    (hStep : hDeflateOpStep st l st') :
    SameSizes st st' := by
  rcases l with ⟨op, rc⟩
  unfold hDeflateOpStep at hStep
  cases op with
  | deflate call =>
      change hDeflate call.flush call.env (call.offer st) =
        some (rc, st') at hStep
      unfold hDeflate at hStep
      split at hStep
      · cases hStep
        exact ⟨rfl, rfl⟩
      · exact { hDeflateLoop_sizes hStep with }
  | setDictionary dictionary =>
      cases hStep
      exact ⟨rfl, rfl⟩
  | setHeader head =>
      cases hStep
      exact ⟨rfl, rfl⟩
  | reset =>
      cases hStep
      exact ⟨rfl, rfl⟩

end Sizes

------------------------------------------------------------
-- Reset
------------------------------------------------------------

section Reset

variable {cfg : DeflateHwConfig} {windowBits strategy : Int}
variable {trace : List (HDeflateOp × Rc)} {st : HDeflate}

/-
  What every run keeps: the options, the sizes of the buffers,
  and that the books of `obuf` are right.
-/
structure RunKept
    (cfg : DeflateHwConfig)
    (format : Format)
    (strategy : Int)
    (st : HDeflate) : Prop where
  along :
    Alongside (SetUpTwice (cfg.stream strategy) format) st st
  ibufTotal : st.s.ibufTotal = cfg.ibufTotal
  obufTotal : st.s.obuf.total = cfg.obufTotal

/- One call keeps it. -/
theorem RunKept.step
    {format : Format}
    {s s' : HDeflate}
    {l : HDeflateOp × Rc}
    (hKept : RunKept cfg format strategy s)
    (hStep : hDeflateOpStep s l s') :
    RunKept cfg format strategy s' := by
  have hSizes := hDeflateOp_sizes hStep
  have hMeets : l.1.Meets fun _ => True := by
    cases l.1 <;> simp [HDeflateOp.Meets]
  exact
    ⟨hKept.along.step setUpTwice_tandem setUpTwice_setUp
        hMeets hStep,
      hSizes.ibufTotal.trans hKept.ibufTotal,
      hSizes.obufTotal.trans hKept.obufTotal⟩

/- Every run keeps all of it. -/
theorem hDeflateRun_kept
    (hRun : HDeflateRun cfg windowBits strategy trace st) :
    ∃ format,
      formatInit windowBits = some format ∧
        RunKept cfg format strategy st := by
  rcases hRun with ⟨z, st₀, hInit, hCalls⟩
  unfold hDeflateInit2 at hInit
  cases hFormat : formatInit windowBits with
  | none =>
      rw [hFormat] at hInit
      cases hInit
  | some format =>
      rw [hFormat] at hInit
      cases hInit
      refine ⟨format, rfl, ?_⟩
      -- `h_deflateInit2_` takes the options over
      have hStart :
          SetUpAs (cfg.stream strategy) format
            (zedcDeflateInit2 (cfg.stream strategy) format) :=
        ⟨rfl, rfl, rfl, rfl, rfl⟩
      exact Run.preserves (RunKept cfg format strategy)
        ⟨⟨⟨rfl, hStart⟩, rfl, rfl, rfl, rfl, rfl, rfl, rfl,
          rfl, rfl, rfl, rfl⟩, rfl, rfl⟩
        (fun _ _ _ hKept hStep => hKept.step hStep) hCalls

/- Reset streams of the same options differ in pages only. -/
theorem twins_reset
    {options : DeflateConfig}
    {format : Format}
    {h k : DeflStream}
    (hSetUp : SetUpAs options format h)
    (hSetUp' : SetUpAs options format k)
    (hHead : k.gzipHead = h.gzipHead) :
    Twins False (deflateInitState h) (deflateInitState k) := by
  rcases hSetUp with ⟨hFormat, hDyn, hFixed, hCheck, hSkip⟩
  rcases hSetUp' with
    ⟨hFormat', hDyn', hFixed', hCheck', hSkip'⟩
  refine ⟨k.dict, ?_, fun _ => ?_, (fun h => by cases h)⟩
  · simp only [idle, deflateInitState, overlay, hFormat,
      hDyn, hFixed, hCheck, hSkip, hFormat', hDyn', hFixed',
      hCheck', hSkip', hHead]
  · exact Or.inr ⟨rfl, rfl, fun i hLt => by cases hLt⟩

/-
  Behind `h_deflateReset` a stream shows in all later calls
  what a new one of the same options and header shows.
-/
theorem hDeflateReset_like_new
    (hRun : HDeflateRun cfg windowBits strategy trace st)
    (z : ZStream)
    (ops : List HDeflateOp)
    (hSame :
      Admits hDeflateShow SameResponses ops
        (hDeflateReset st).2) :
    (hDeflateReset st).1 = .ok ∧
      ∃ new,
        hDeflateInit2 cfg windowBits strategy z = some new ∧
          observe hDeflateShow ops (hDeflateReset st).2 =
            observe hDeflateShow ops
              (hDeflateSetHeader st.s.h.gzipHead new).2 := by
  rcases hDeflateRun_kept hRun with ⟨format, hFormat, hKept⟩
  have hOptions := hKept.along.h.2
  generalize hBlank :
    zedcDeflateSetHeader st.s.h.gzipHead
      { DeflStream.zeroed format cfg.dynHuffmanSupported with
        strategyFixed := strategy = zFixed
        flgCrossCheck := cfg.flgCrossCheck
        flgSkipLastDict := cfg.flgSkipLastDict } = blank
  have hNew : SetUpAs (cfg.stream strategy) format blank := by
    rw [← hBlank]
    exact ⟨rfl, rfl, rfl, rfl, rfl⟩
  have hTwins :
      Twins False (deflateInitState st.s.h)
        (deflateInitState blank) := by
    refine twins_reset hOptions hNew ?_
    rw [← hBlank]
    rfl
  refine ⟨rfl, _, by rw [hDeflateInit2, hFormat], ?_⟩
  refine hDeflateShow_lockstep.observe_eq ?_ hSame
  subst hBlank
  exact
    { h := hTwins
      rc := rfl
      ibufTotal := hKept.ibufTotal.symm
      ibufAvail := hKept.ibufTotal.symm
      ibuf := rfl
      obufTotal := hKept.obufTotal.symm
      obufAvail := hKept.obufTotal.symm
      waiting := rfl
      totalIn := rfl
      totalOut := rfl
      adler := InCall.fixup hTwins.books st.strm z
      room := rfl }

end Reset

/- A GZIP stream with an input buffer of four bytes. -/
def smallConfig : DeflateHwConfig where
  ibufTotal := 4
  pageSize := 256
  dynHuffmanSupported := true
  flgCrossCheck := false
  flgSkipLastDict := false

def smallNew : HDeflate :=
  (hDeflateInit2 smallConfig 31 0 ZStream.initial).get rfl

/- The same with a flush in the middle of its data. -/
def smallUsed : HDeflate :=
  ((hDeflate sixBytesCall.flush sixBytesCall.env
    (sixBytesCall.offer smallNew)).getD (.errno, smallNew)).2

theorem hDeflateReset_like_new_used :
    (hDeflateReset smallUsed).1 = .ok ∧
      ∃ new,
        hDeflateInit2 smallConfig 31 0 ZStream.initial =
            some new ∧
          observe hDeflateShow [.deflate sixBytesCall]
              (hDeflateReset smallUsed).2 =
            observe hDeflateShow [.deflate sixBytesCall]
              (hDeflateSetHeader smallUsed.s.h.gzipHead
                new).2 := by
  have hRun :
      HDeflateRun smallConfig 31 0
        ([] ++ [(.deflate sixBytesCall, .ok)]) smallUsed :=
    ⟨ZStream.initial, smallNew, rfl,
      Run.next Run.start rfl⟩
  exact hDeflateReset_like_new hRun ZStream.initial
    [.deflate sixBytesCall]
    ⟨fun _ _ _ _ _ => rfl, fun _ _ _ => trivial⟩

end Session
