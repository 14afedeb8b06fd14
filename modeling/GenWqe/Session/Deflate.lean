import GenWqe.Deflate.Accounts
import GenWqe.Hardware.InflateRuns

/-
  The calls an application makes on a deflate stream of the
  zEDC library itself, with the states that any sequence of
  them reaches.

  Key definitions include:
    * `DeflateConfig`, `DeflateOp`
    * `deflateOpStep`, `DeflateRun`
    * `deflateSubmits`

  Main results:
    * `deflatePrepare_dictKept`
    * `deflatePrepare_headerOpen`
    * `unstarted_run`
    * `DeflEnded.prepare`
-/

------------------------------------------------------------
-- Calls
------------------------------------------------------------

namespace Session

open Zedc Hardware

/- What a deflate stream is set up with. -/
structure DeflateConfig where
  dynHuffmanSupported : Bool
  strategyFixed : Bool
  flgCrossCheck : Bool
  flgSkipLastDict : Bool

/- `zedc_deflateInit2` -/
def zedcDeflateInit2
    (cfg : DeflateConfig) (format : Format) : DeflStream :=
  deflateInitState
    { DeflStream.zeroed format cfg.dynHuffmanSupported with
      strategyFixed := cfg.strategyFixed
      flgCrossCheck := cfg.flgCrossCheck
      flgSkipLastDict := cfg.flgSkipLastDict }

/-
  A call on a deflate stream; `reset` is
  `zedc_deflateReset`.
-/
inductive DeflateOp where
  | deflate (call : DeflateCall)
  | setDictionary (dictionary : List UInt8)
  | setHeader (head : Option GzipHead)
  | reset

/- The caller's buffers are offered. -/
def offerDeflate
    (call : DeflateCall) (s : DeflStream) : DeflStream :=
  { s with
    nextIn := call.nextIn
    availOut := call.availOut }

/- `zedc_deflateSetDictionary`, with the checksum it stores. -/
def deflateSetDictionary
    (dictionary : List UInt8) (s : DeflStream) :
    Rc × DeflStream :=
  zedcDeflateSetDictionary dictionary
    (UInt32.ofNat (adler32 1 dictionary)) s

/- A call, what it returns, and the stream it leaves. -/
def DeflateOp.run
    (s : DeflStream) : DeflateOp → Rc × DeflStream
  | .deflate call => ((call.ret s).rc, (call.ret s).strm)
  | .setDictionary dictionary =>
      deflateSetDictionary dictionary s
  | .setHeader head => (.ok, zedcDeflateSetHeader head s)
  | .reset => (.ok, deflateInitState s)

/- One call on the stream, with what it returned. -/
def deflateOpStep
    (s : DeflStream)
    (l : DeflateOp × Rc)
    (s' : DeflStream) : Prop :=
  l.1.run s = (l.2, s')

/- A run of calls on a stream that was set up. -/
def DeflateRun
    (cfg : DeflateConfig)
    (format : Format)
    (trace : List (DeflateOp × Rc))
    (s : DeflStream) : Prop :=
  Run deflateOpStep (zedcDeflateInit2 cfg format) trace s

/- The call of `zedc_deflate` submits a DDCB. -/
def deflateSubmits
    (call : DeflateCall) (s : DeflStream) : Bool :=
  (deflatePrepare call.flush call.env.now
    (offerDeflate call s)).isRight

------------------------------------------------------------
-- The Dictionary
------------------------------------------------------------

/- Where the dictionary is, and what is there. -/
structure DeflDictKept (s s' : DeflStream) : Prop where
  dict : s'.dict = s.dict
  wspPage : s'.wspPage = s.wspPage
  dictLen : s'.dictLen = s.dictLen
  outDictOffs : s'.outDictOffs = s.outDictOffs

namespace DeflDictKept

theorem refl (s : DeflStream) : DeflDictKept s s :=
  ⟨rfl, rfl, rfl, rfl⟩

theorem trans
    {s s₁ s₂ : DeflStream}
    (hFirst : DeflDictKept s s₁)
    (hNext : DeflDictKept s₁ s₂) :
    DeflDictKept s s₂ :=
  ⟨hNext.dict.trans hFirst.dict,
    hNext.wspPage.trans hFirst.wspPage,
    hNext.dictLen.trans hFirst.dictLen,
    hNext.outDictOffs.trans hFirst.outDictOffs⟩

theorem of_inputSide
    {s s' : DeflStream}
    (hSide : s'.inputSide = s.inputSide) :
    DeflDictKept s s' :=
  ⟨(congrArg DeflStream.dict hSide :),
    (congrArg DeflStream.wspPage hSide :),
    (congrArg DeflStream.dictLen hSide :),
    (congrArg DeflStream.outDictOffs hSide :)⟩

end DeflDictKept

theorem deflateAddHeader_kept
    (now : UInt32) (s : DeflStream) :
    DeflDictKept s (deflateAddHeader now s).2 := by
  unfold deflateAddHeader
  split
  · exact .refl s
  · split
    · exact ⟨rfl, rfl, rfl, rfl⟩
    · split <;> exact ⟨rfl, rfl, rfl, rfl⟩
  · exact ⟨rfl, rfl, rfl, rfl⟩

/- Up to the request nothing happens to the dictionary. -/
theorem deflatePrepare_dictKept
    (flush : Flush) (now : UInt32) (s : DeflStream) :
    DeflDictKept s
      (preparedStrm (deflatePrepare flush now s)) := by
  have hHeader :
      DeflDictKept s
        (if s.headerAdded then (false, s)
          else deflateAddHeader now s).2 := by
    split
    · exact .refl s
    · exact deflateAddHeader_kept now s
  unfold deflatePrepare
  generalize
    (if s.headerAdded then (false, s)
      else deflateAddHeader now s) = added at *
  rcases added with ⟨_ | _, s₁⟩
  · have hDrained :=
      hHeader.trans
        (.of_inputSide (inputSide_deflateWriteOutFifo s₁))
    simp only
    unfold deflatePrepareDrained
    split
    · exact hDrained
    · rw [deflateExits_strm]
      split
      · exact hDrained.trans
          (.of_inputSide (inputSide_deflateFinish _))
      · exact hDrained
  · exact hHeader

------------------------------------------------------------
-- Before the First Call
------------------------------------------------------------

/- A format header that was not written yet. -/
def HeaderOpen (s : DeflStream) : Prop :=
  s.format ≠ .defl ∧ s.headerAdded = false

/- Writing the header closes it, unless that is refused. -/
theorem addHeader_open
    {now : UInt32}
    {s s₁ : DeflStream}
    {err : Bool}
    (hAdd :
      (if s.headerAdded then (false, s)
        else deflateAddHeader now s) = (err, s₁))
    (hOpen : HeaderOpen s₁) :
    err = true ∧ HeaderOpen s := by
  split at hAdd
  · rename_i hAdded
    cases hAdd
    have hSame := hAdded.symm.trans hOpen.2
    cases hSame
  · rename_i hNone
    have hBefore : s.headerAdded = false :=
      Bool.eq_false_iff.mpr hNone
    unfold deflateAddHeader at hAdd
    split at hAdd
    · rename_i hDefl
      cases hAdd
      exact absurd hDefl hOpen.1
    · split at hAdd
      · cases hAdd
        have hSame := hOpen.2
        cases hSame
      · split at hAdd
        · cases hAdd
          exact ⟨rfl, hOpen.1, hBefore⟩
        · cases hAdd
          have hSame := hOpen.2
          cases hSame
    · cases hAdd
      have hSame := hOpen.2
      cases hSame

/- Behind it nothing looks at the header. -/
theorem deflatePrepareDrained_header
    (flush : Flush) (s : DeflStream) :
    (preparedStrm (deflatePrepareDrained flush s)).format =
        s.format ∧
      (preparedStrm
        (deflatePrepareDrained flush s)).headerAdded =
          s.headerAdded := by
  unfold deflatePrepareDrained
  split
  · exact ⟨rfl, rfl⟩
  · rw [deflateExits_strm]
    split
    · have hSide := inputSide_deflateFinish s
      exact ⟨(congrArg DeflStream.format hSide :),
        (congrArg DeflStream.headerAdded hSide :)⟩
    · exact ⟨rfl, rfl⟩

/- The header is written, or nothing more is done. -/
theorem deflatePrepare_headerOpen
    {flush : Flush}
    {now : UInt32}
    {s : DeflStream}
    (hOpen :
      HeaderOpen
        (preparedStrm (deflatePrepare flush now s))) :
    HeaderOpen s ∧
      ∃ rc s', deflatePrepare flush now s = .inl (rc, s') := by
  unfold deflatePrepare at hOpen ⊢
  generalize hAdd :
    (if s.headerAdded then (false, s)
      else deflateAddHeader now s) = added at *
  rcases added with ⟨_ | _, s₁⟩
  · rcases deflatePrepareDrained_header flush
      (deflateWriteOutFifo s₁) with ⟨hFormat, hAdded⟩
    have hSide := inputSide_deflateWriteOutFifo s₁
    have hFormat₁ :
        (deflateWriteOutFifo s₁).format = s₁.format :=
      (congrArg DeflStream.format hSide :)
    have hAdded₁ :
        (deflateWriteOutFifo s₁).headerAdded =
          s₁.headerAdded :=
      (congrArg DeflStream.headerAdded hSide :)
    have hBehind : HeaderOpen s₁ :=
      ⟨(hFormat.trans hFormat₁) ▸ hOpen.1,
        (hAdded.trans hAdded₁) ▸ hOpen.2⟩
    cases (addHeader_open hAdd hBehind).1
  · exact ⟨(addHeader_open hAdd hOpen).2, _, _, rfl⟩

/- A submission does not touch the header. -/
theorem deflateSubmit_header
    (flush : Flush)
    (env : DeflateEnv)
    (s : DeflStream) :
    (deflateSubmit flush env s).strm.format = s.format ∧
      (deflateSubmit flush env s).strm.headerAdded =
        s.headerAdded := by
  have hExecuted :
      ∀ {found : Option DeflExchange} {s₁ : DeflStream},
        deflateExecute flush env s = (found, s₁) →
          s₁.format = s.format ∧
            s₁.headerAdded = s.headerAdded := by
    intro found s₁ hExec
    rcases (deflateExecute_spec hExec).1 with ⟨dict, rfl⟩
    exact ⟨rfl, rfl⟩
  have hResult :
      ∀ (resp : DeflResp) (s : DeflStream),
        (deflateProcessResults resp s).2.format = s.format ∧
        (deflateProcessResults resp s).2.headerAdded =
          s.headerAdded := by
    intro resp s
    unfold deflateProcessResults
    simp only
    split_ifs <;> exact ⟨rfl, rfl⟩
  have hOutcome := deflateSubmit_outcome flush env s
  generalize deflateSubmit flush env s = ret at *
  cases hOutcome with
  | failed hExec => exact hExecuted hExec
  | badOffset hExec _ => exact (hExecuted hExec :)
  | @refused ex s₁ s₂ rc hExec _ hResults _ =>
      have hKept := hResult ex.resp
        (deflateTakeAsv ex.resp s₁)
      rw [hResults] at hKept
      exact ⟨hKept.1.trans (hExecuted hExec).1,
        hKept.2.trans (hExecuted hExec).2⟩
  | @accepted ex s₁ s₂ hExec _ hResults =>
      have hKept := hResult ex.resp
        (deflateTakeAsv ex.resp s₁)
      rw [hResults] at hKept
      have hSide := inputSide_deflateFlush flush s₂
      have hFormat :
          (deflateFlush flush s₂).format = s₂.format :=
        (congrArg DeflStream.format hSide :)
      have hAdded :
          (deflateFlush flush s₂).headerAdded =
            s₂.headerAdded :=
        (congrArg DeflStream.headerAdded hSide :)
      exact ⟨hFormat.trans
          (hKept.1.trans (hExecuted hExec).1),
        hAdded.trans (hKept.2.trans (hExecuted hExec).2)⟩

/- Before the header the dictionary starts page 0. -/
def Unstarted (s : DeflStream) : Prop :=
  HeaderOpen s → s.wspPage = false ∧ s.outDictOffs = 0

/- A call that leaves the header open did not submit. -/
theorem headerOpen_prepared
    {s : DeflStream}
    (call : DeflateCall)
    (hOpen : HeaderOpen (call.ret s).strm) :
    HeaderOpen
      (preparedStrm
        (deflatePrepare call.flush call.env.now
          (offerDeflate call s))) := by
  change HeaderOpen
    (zedcDeflate call.flush call.env
      (offerDeflate call s)).strm at hOpen
  unfold zedcDeflate at hOpen
  cases hPrepare :
      deflatePrepare call.flush call.env.now
        (offerDeflate call s) with
  | inl result =>
      rw [hPrepare] at hOpen
      exact hOpen
  | inr s₁ =>
      rw [hPrepare] at hOpen
      have hSame :=
        deflateSubmit_header call.flush call.env s₁
      exact ⟨hSame.1 ▸ hOpen.1, hSame.2 ▸ hOpen.2⟩

theorem unstarted_call
    {s : DeflStream}
    (call : DeflateCall)
    (hUnstarted : Unstarted s) :
    Unstarted (call.ret s).strm := by
  intro hOpen
  have hKept :=
    deflatePrepare_dictKept call.flush call.env.now
      (offerDeflate call s)
  rcases deflatePrepare_headerOpen
    (headerOpen_prepared call hOpen) with
    ⟨hBefore, rc, s', hLeft⟩
  have hPages := hUnstarted hBefore
  show
    (zedcDeflate call.flush call.env
        (offerDeflate call s)).strm.wspPage = false ∧
      (zedcDeflate call.flush call.env
        (offerDeflate call s)).strm.outDictOffs = 0
  unfold zedcDeflate
  rw [hLeft] at hKept ⊢
  exact ⟨hKept.wspPage.trans hPages.1,
    hKept.outDictOffs.trans hPages.2⟩

theorem unstarted_op
    {s s' : DeflStream}
    {l : DeflateOp × Rc}
    (hUnstarted : Unstarted s)
    (hStep : deflateOpStep s l s') :
    Unstarted s' := by
  rcases l with ⟨op, rc⟩
  have hStrm : (op.run s).2 = s' :=
    congrArg Prod.snd hStep
  rw [← hStrm]
  cases op with
  | deflate call => exact unstarted_call call hUnstarted
  | setDictionary dictionary =>
      show Unstarted (deflateSetDictionary dictionary s).2
      unfold deflateSetDictionary zedcDeflateSetDictionary
      split
      · exact hUnstarted
      · split
        · exact hUnstarted
        · exact hUnstarted
  | setHeader head => exact hUnstarted
  | reset => exact fun _ => ⟨rfl, rfl⟩

theorem unstarted_run
    {cfg : DeflateConfig}
    {format : Format}
    {trace : List (DeflateOp × Rc)}
    {s : DeflStream}
    (hRun : DeflateRun cfg format trace s) : Unstarted s :=
  Run.preserves Unstarted (fun _ => ⟨rfl, rfl⟩)
    (fun _ _ _ hUnstarted hStep =>
      unstarted_op hUnstarted hStep) hRun

------------------------------------------------------------
-- Behind the End
------------------------------------------------------------

/- End of block and trailer were written. -/
structure DeflEnded (s : DeflStream) : Prop where
  eobAdded : s.eobAdded = true
  trailerAdded : s.trailerAdded = true

/- With output space left all of it is then given out. -/
theorem DeflEnded.drained
    {s : DeflStream}
    (hEnded : DeflEnded s) :
    DeflEnded (deflateWriteOutFifo s) ∧
      ((deflateWriteOutFifo s).availOut ≠ 0 →
        deflateDone (deflateWriteOutFifo s) = true) := by
  have hDrained := deflateWriteOutFifo_spec s
  rcases hDrained.eq with ⟨out, f, _, _, hEq⟩
  have hAfter : DeflEnded (deflateWriteOutFifo s) := by
    rw [hEq]
    exact ⟨hEnded.eobAdded, hEnded.trailerAdded⟩
  refine ⟨hAfter, fun hSpace => ?_⟩
  have hEmpty := hDrained.full.resolve_left hSpace
  unfold deflateDone
  rw [hAfter.eobAdded, hAfter.trailerAdded,
    (ZedcFifo.fifoEmpty_iff _).mpr hEmpty]
  rfl

/- There is nothing to finish any more. -/
theorem DeflEnded.finish
    {s : DeflStream}
    (hEnded : DeflEnded s) :
    deflateFinish s = deflateWriteOutFifo s := by
  have hEob : deflateWriteEob s = s := by
    unfold deflateWriteEob
    rw [if_pos hEnded.eobAdded]
  have hTrailer : deflateAddTrailer s = s := by
    unfold deflateAddTrailer
    rw [hEnded.eobAdded, hEnded.trailerAdded]
    rfl
  unfold deflateFinish
  rw [hEob, hTrailer]

theorem format_deflateWriteOutFifo (s : DeflStream) :
    (deflateWriteOutFifo s).format = s.format :=
  (congrArg DeflStream.format
    (inputSide_deflateWriteOutFifo s) :)

theorem DeflEnded.prepareDrained
    {s : DeflStream}
    (hEnded : DeflEnded s)
    (hDone : s.availOut ≠ 0 → deflateDone s = true)
    (flush : Flush) :
    ∃ rc s',
      deflatePrepareDrained flush s = .inl (rc, s') ∧
        DeflEnded s' ∧ s'.format = s.format := by
  unfold deflatePrepareDrained
  by_cases hSpace : s.availOut = 0
  · rw [if_pos hSpace]
    exact ⟨_, _, rfl, hEnded, rfl⟩
  rw [if_neg hSpace]
  split
  · rename_i hEmpty
    rw [hEnded.finish]
    have hNone : (deflateWriteOutFifo s).nextIn = [] :=
      ((congrArg DeflStream.nextIn
        (inputSide_deflateWriteOutFifo s) :)).trans hEmpty.2
    have hAfter := hEnded.drained.1
    have hFormat := format_deflateWriteOutFifo s
    unfold deflateExits
    rw [if_pos hNone]
    split
    · exact ⟨_, _, rfl, hAfter, hFormat⟩
    · split <;> exact ⟨_, _, rfl, hAfter, hFormat⟩
  · unfold deflateExits
    rw [if_pos (hDone hSpace)]
    exact ⟨_, _, rfl, hEnded, rfl⟩

/- No DDCB follows. -/
theorem DeflEnded.prepare
    {s : DeflStream}
    (hEnded : DeflEnded s)
    (flush : Flush)
    (now : UInt32) :
    ∃ rc s',
      deflatePrepare flush now s = .inl (rc, s') ∧
        DeflEnded s' ∧ s'.format = s.format := by
  have hHeader :
      ∀ err s₁,
        (if s.headerAdded then (false, s)
          else deflateAddHeader now s) = (err, s₁) →
        DeflEnded s₁ ∧ s₁.format = s.format := by
    intro err s₁ hAdd
    split at hAdd
    · cases hAdd
      exact ⟨hEnded, rfl⟩
    · unfold deflateAddHeader at hAdd
      split at hAdd
      · cases hAdd
        exact ⟨hEnded, rfl⟩
      · split at hAdd
        · cases hAdd
          exact ⟨⟨hEnded.eobAdded, hEnded.trailerAdded⟩, rfl⟩
        · split at hAdd <;> cases hAdd <;>
            exact ⟨⟨hEnded.eobAdded, hEnded.trailerAdded⟩,
              rfl⟩
      · cases hAdd
        exact ⟨⟨hEnded.eobAdded, hEnded.trailerAdded⟩, rfl⟩
  unfold deflatePrepare
  generalize hAdd :
    (if s.headerAdded then (false, s)
      else deflateAddHeader now s) = added at *
  rcases added with ⟨_ | _, s₁⟩
  · rcases hHeader _ _ rfl with ⟨hEnded₁, hFormat₁⟩
    rcases hEnded₁.drained with ⟨hEnded₂, hDone₂⟩
    rcases hEnded₂.prepareDrained hDone₂ flush with
      ⟨rc, s', hPrepare, hEnded', hFormat'⟩
    exact ⟨rc, s', hPrepare, hEnded',
      hFormat'.trans
        ((format_deflateWriteOutFifo s₁).trans hFormat₁)⟩
  · rcases hHeader _ _ rfl with ⟨hEnded₁, hFormat₁⟩
    exact ⟨_, _, rfl, hEnded₁, hFormat₁⟩

end Session
