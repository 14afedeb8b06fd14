import GenWqe.Inflate.Layout
import GenWqe.Session.Inflate

/-
  The layout of the save area in every state an application
  can bring an inflate stream to, as long as the responses
  are honest.

  Key definitions include:
    * `InflateLabel.exchange`, `InflateLabel.written`
    * `scratchAt`

  Main results:
    * `inflateOpStep_placed`
    * `saveArea_layout`
-/

------------------------------------------------------------
-- Where the Scratch Was Written Last
------------------------------------------------------------

namespace Session

open Zedc Hardware

/- The exchange with the card that a call makes, if any. -/
def InflateLabel.exchange
    (l : InflateLabel) : Option InflExchange :=
  match l.op with
  | .inflate args =>
      (zedcInflate args.flush args.env
        (args.offer l.before)).bind InflRet.exchange
  | _ => none

/-
  The offset to which a call writes the scratch. A reset
  empties the save area, and the scratch starts over.
-/
def InflateLabel.written
    (l : InflateLabel) : Option Nat :=
  match l.op with
  | .inflate args =>
      scratchWritten args.flush args.env
        (args.offer l.before)
  | .reset _ => some 0
  | _ => none

/- The offset to which it was written last in a run. -/
def scratchAt (trace : List InflateLabel) : Nat :=
  trace.foldl (fun at_ l => l.written.getD at_) 0

theorem scratchAt_append
    (trace : List InflateLabel)
    (l : InflateLabel) :
    scratchAt (trace ++ [l]) =
      l.written.getD (scratchAt trace) := by
  unfold scratchAt
  rw [List.foldl_append]
  rfl

------------------------------------------------------------
-- Every Run
------------------------------------------------------------

theorem placed_initState (s : InflStream) :
    Placed 0 (inflateInitState s) := by
  refine ⟨(accounted_init (fun _ => 0) s).save, ?_⟩
  simp [SaveArea.scratchStart, inflateInitState]

/- One call keeps the scratch where it was written. -/
theorem inflateOpStep_placed
    {s s' : InflStream}
    {l : InflateLabel}
    {written : Nat}
    (hPlaced : InData s → Placed written s)
    (hHonest :
      ∀ ex, l.exchange = some ex → HonestOrIdle ex)
    (hStep : inflateOpStep s l s')
    (hData : InData s') :
    Placed (l.written.getD written) s' := by
  rcases l with ⟨before, op, rc⟩
  rcases hStep with ⟨hBefore, hRun⟩
  have hBefore' : before = s := hBefore
  subst hBefore'
  -- calls that leave save area and status alone
  have hSame :
      SaveStays before s' → Placed written s' :=
    fun hStays =>
      (hPlaced (hStays.inData hData)).congr hStays.save
  cases op with
  | inflate args =>
      rcases Option.map_eq_some_iff.mp hRun with
        ⟨ret, hCall, hRet⟩
      cases hRet
      refine zedcInflate_placed ?_ ?_ hCall hData
      · intro hOld
        exact (hPlaced
          ⟨hOld.eobSeen, hOld.inflStat⟩).congr rfl
      · intro ex hEx
        apply hHonest ex
        unfold InflateLabel.exchange
        simp only
        rw [hCall]
        exact hEx
  | setDictionary dictionary =>
      have hRun' := Option.some.inj hRun
      unfold zedcInflateSetDictionary at hRun'
      split at hRun'
      · cases hRun'
        exact hSame (.refl _)
      · split at hRun'
        · cases hRun'
          exact hSame (.refl _)
        · cases hRun'
          exact hSame ⟨rfl, rfl, id⟩
  | getHeader head =>
      cases Option.some.inj hRun
      exact hSame ⟨rfl, rfl, id⟩
  | readPending len =>
      unfold InflateOp.run at hRun
      simp only at hRun
      cases hRead : zedcReadPendingOutput len before with
      | none =>
          rw [hRead] at hRun
          cases hRun
          exact hSame (.refl _)
      | some out =>
          rw [hRead] at hRun
          cases hRun
          unfold zedcReadPendingOutput at hRead
          split at hRead
          · cases hRead
            exact hSame (.refl _)
          · split at hRead
            · cases hRead
            · cases hRead
              exact hSame ⟨rfl, rfl, id⟩
  | reset windowBits =>
      have hRun' := Option.some.inj hRun
      unfold zedcInflateReset at hRun'
      split at hRun'
      · cases hRun'
        exact placed_initState _
      · cases hRun'
        exact (placed_initState _).congr rfl

theorem placed_of_run
    {cfg : InflateConfig}
    {format : Format}
    {trace : List InflateLabel}
    {s : InflStream}
    (hRun : InflateRun cfg format trace s)
    (hHonest :
      ∀ l ∈ trace, ∀ ex,
        l.exchange = some ex → HonestOrIdle ex) :
    InData s → Placed (scratchAt trace) s := by
  apply hRun.invariant_of_labels
    (fun trace s => InData s → Placed (scratchAt trace) s)
    (fun l => ∀ ex,
      l.exchange = some ex → HonestOrIdle ex)
  · intro _
    exact placed_initState _
  · intro trace s l s' hOk hPlaced hStep hData
    rw [scratchAt_append]
    exact inflateOpStep_placed hPlaced hOk hStep hData
  · exact hHonest

/-
  Whenever a DDCB is built, the header with its padding fills
  up words, the scratch fills up bytes, both lengths make up
  the length given to the card, and the scratch starts where
  it was written.
-/
theorem saveArea_layout
    {cfg : InflateConfig}
    {format : Format}
    {trace : List InflateLabel}
    {s s₁ : InflStream}
    {args : InflateArgs}
    (hRun : InflateRun cfg format trace s)
    (hHonest :
      ∀ l ∈ trace, ∀ ex,
        l.exchange = some ex → HonestOrIdle ex)
    (hPrepare :
      inflatePrepare args.flush (args.offer s) =
        some (.inr s₁)) :
    (s₁.save.hdrIb + s₁.save.treeBits +
        s₁.save.padBits) % 64 = 0 ∧
      s₁.save.hdrIb < 8 ∧
      (s₁.save.treeBits = 0 →
        s₁.save.hdrIb = 0 ∧ s₁.save.padBits = 0) ∧
      s₁.save.scratchIb < 8 ∧
      (s₁.save.scratchIb + s₁.save.scratchBits) % 8 = 0 ∧
      8 * (setInflateAsiv s₁).inHdrScratchLen =
        s₁.save.hdrIb + s₁.save.treeBits +
          s₁.save.padBits + s₁.save.scratchIb +
          s₁.save.scratchBits ∧
      8 * scratchAt trace =
        s₁.save.hdrIb + s₁.save.treeBits +
          s₁.save.padBits := by
  have hOutcome := inflatePrepare_outcome hPrepare
  have hOld : InData s :=
    ⟨hOutcome.inData.eobSeen, hOutcome.inData.inflStat⟩
  have hBefore := placed_of_run hRun hHonest hOld
  have hSave : s₁.save = s.save := hOutcome.stays.save
  have hPlaced : Placed (scratchAt trace) s₁ :=
    hBefore.congr hSave
  have hOk := hPlaced.save
  have hStart := hPlaced.start
  have hAligned := hOk.aligned
  have hPad := hOk.padBits
  have hWhole := hOk.whole
  have hLen :
      (setInflateAsiv s₁).inHdrScratchLen =
        s₁.save.scratchStart + s₁.save.scratchLen :=
    hOk.bits
  unfold SaveArea.scratchStart at hStart hLen
  unfold SaveArea.scratchLen at hLen
  refine ⟨hAligned, hOk.hdrIb, ?_, hOk.scratchIb, hWhole,
    ?_, ?_⟩
  · intro hNone
    have hIb := hOk.empty hNone
    omega
  · omega
  · omega

------------------------------------------------------------
-- A Run with One Response
------------------------------------------------------------

/- The stream as `zedc_inflateInit2` leaves it. -/
def noFlags : InflateConfig where
  obufTotal := 0
  flgCrossCheck := false
  flgSkipLastDict := false
  dmaOutSglist := false

/-
  The card has passed the empty block of ten bits, and stopped
  behind the three bits of the next header.
-/
def keptResp : InflResp :=
  { nextBlockResp with inpProcessed := 1, procBits := 5 }

def keptArgs : InflateArgs where
  nextIn := twoBlocks.window 0 8
  availOut := 16
  flush := .noFlush
  env := ⟨fun _ _ => keptResp⟩

/- The stream that keeps this header, and the rest. -/
def keptStream : InflStream :=
  ((zedcInflate .noFlush keptArgs.env
    (keptArgs.offer rawStream)).map InflRet.strm).getD
      rawStream

/- One byte more. -/
def moreArgs : InflateArgs where
  nextIn := twoBlocks.window 8 1
  availOut := 16
  flush := .noFlush
  env := ⟨fun _ _ => quietResp⟩

def keptLabel : InflateLabel where
  before := rawStream
  op := .inflate keptArgs
  rc := .ok

theorem kept_run :
    InflateRun noFlags .defl ([] ++ [keptLabel])
      keptStream := by
  refine Run.next Run.start ⟨rfl, ?_⟩
  rfl

theorem kept_honest :
    ∀ l ∈ [] ++ [keptLabel], ∀ ex,
      l.exchange = some ex → HonestOrIdle ex := by
  intro l hMem ex hEx
  rw [List.nil_append, List.mem_singleton] at hMem
  subst hMem
  cases hEx
  exact
    ⟨fun _ => ⟨by decide, by decide, by decide, by decide,
      by decide, by decide, by decide⟩,
      fun hNone => absurd hNone (by decide)⟩

/- The stream that makes the second request. -/
def keptMore : InflStream :=
  { moreArgs.offer keptStream with inpDataOffs := 0 }

theorem prepare_keptMore :
    inflatePrepare .noFlush (moreArgs.offer keptStream) =
      some (.inr keptMore) :=
  rfl

/-
  The header starts at its third bit, the scratch behind the
  first word, with five bits that are ignored.
-/
theorem saveArea_layout_header :
    keptMore.save.treeBits = 3 ∧
    keptMore.save.scratchIb = 5 ∧
    (setInflateAsiv keptMore).inHdrScratchLen = 15 ∧
    scratchAt ([] ++ [keptLabel]) = 8 := by
  rcases @saveArea_layout noFlags .defl _ _ _ moreArgs
    kept_run kept_honest prepare_keptMore with
    ⟨_, _, _, _, _, hLen, hAt⟩
  have hTree : keptMore.save.treeBits = 3 := by decide
  have hScratch :
      keptMore.save.scratchIb = 5 ∧
        keptMore.save.scratchBits = 51 := by
    decide
  have hPad :
      keptMore.save.hdrIb = 2 ∧
        keptMore.save.padBits = 59 := by
    decide
  refine ⟨hTree, hScratch.1, ?_, ?_⟩
  · omega
  · omega

end Session
