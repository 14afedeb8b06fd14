import GenWqe.Inflate.TreeWrites
import GenWqe.Session.Layout

/-
  When the update of the header, tree and scratch area stays
  inside of its buffer, in every state an application can
  bring an inflate stream to.

  Main results:
    * `zedcInflate_layoutLen`
    * `treeArea_inside_iff`
    * `treeArea_overrun`
-/

namespace Session

open Zedc Hardware

/- A call of which the update is no fault leaves its area. -/
theorem zedcInflate_layoutLen
    {flush : Flush}
    {env : InflateEnv}
    {s s₁ s₂ s₃ : InflStream}
    {ex : InflExchange}
    {rc : Rc}
    (hPrepare : inflatePrepare flush s = some (.inr s₁))
    (hExec : inflateExecute flush env s₁ = (.done ex, s₂))
    (hUpdate :
      postScratchUpd (getInflateAsv ex.resp s₂) =
        some (rc, s₃)) :
    ∃ ret, zedcInflate flush env s = some ret ∧
      ret.strm.save = s₃.save := by
  refine ⟨⟨(inflateCheck ex rc s₃).1,
    (inflateCheck ex rc s₃).2, some ex⟩, ?_, ?_⟩
  · unfold zedcInflate inflateSubmit
    rw [hPrepare]
    simp only
    rw [hExec]
    simp only
    rw [hUpdate]
  · exact (inflateCheck_stays ex rc s₃).save

/-
  In every state that honest responses lead to, the next call
  that makes an exchange writes inside the area, and returns
  an error or leaves a layout that fits, exactly if nothing
  was processed, or the final block was passed, or what is to
  be kept has room.
-/
theorem treeArea_inside_iff
    {cfg : InflateConfig}
    {format : Format}
    {trace : List InflateLabel}
    {s s₁ s₂ : InflStream}
    {args : InflateArgs}
    {ex : InflExchange}
    (hRun : InflateRun cfg format trace s)
    (hHonest :
      ∀ l ∈ trace, ∀ ex,
        l.exchange = some ex → HonestOrIdle ex)
    (hPrepare :
      inflatePrepare args.flush (args.offer s) =
        some (.inr s₁))
    (hExec :
      inflateExecute args.flush args.env s₁ =
        (.done ex, s₂))
    (hNow : HonestUpdate ex) :
    (AllInside (updateWrites (getInflateAsv ex.resp s₂)) ∧
      ∃ ret,
        zedcInflate args.flush args.env (args.offer s) =
            some ret ∧
          (ret.rc.IsNegative ∨
            ret.strm.save.layoutLen ≤ zedcTreeLen)) ↔
      (ex.resp.processed = 0 ∨ ex.final = true ∨
        TreeFits ex) := by
  have hOutcome := inflatePrepare_outcome hPrepare
  have hOld : InData s :=
    ⟨hOutcome.inData.eobSeen, hOutcome.inData.inflStat⟩
  have hPlaced := placed_of_run hRun hHonest hOld
  have hReq := hOutcome.requesting hPlaced.save
  have hParts :=
    RequestOf.parts ⟨(inflateExecute_done hExec).1⟩ hReq
  have hSame :
      ∃ pages,
        getInflateAsv ex.resp s₂ =
          s₁.answered pages ex.resp := by
    rcases inflateExecute_tried hExec with ⟨pages, rfl⟩
    exact ⟨pages, rfl⟩
  rcases hSame with ⟨pages, hAnswered⟩
  rcases updateWrites_inside_iff pages hReq hParts hNow with
    ⟨hIff, hKeeps⟩
  rw [← hAnswered] at hIff hKeeps
  constructor
  · exact fun hSafe => hIff.mp hSafe.1
  · intro hCond
    have hInside := hIff.mpr hCond
    rcases hKeeps hInside with ⟨rc, s₃, hUpdate, hLen⟩
    rcases zedcInflate_layoutLen hPrepare hExec hUpdate with
      ⟨ret, hCall, hSave⟩
    refine ⟨hInside, ret, hCall, Or.inr ?_⟩
    rw [hSave]
    exact hLen

------------------------------------------------------------
-- More Input Than the Area Holds
------------------------------------------------------------

/- It has processed one bit, and wrote nothing. -/
def oneBitResp : InflResp :=
  { quietResp with procBits := 1 }

/- More input than the area has bytes. -/
def bigArgs : InflateArgs where
  nextIn := List.replicate 600 0
  availOut := 16
  flush := .noFlush
  env := ⟨fun _ _ => oneBitResp⟩

def bigExchange : InflExchange :=
  ⟨inflateRequest (bigArgs.offer rawStream), oneBitResp⟩

/- The stream behind the request. -/
def bigSent : InflStream :=
  (inflateExecute .noFlush bigArgs.env
    (bigArgs.offer rawStream)).2

theorem prepare_big :
    inflatePrepare .noFlush (bigArgs.offer rawStream) =
      some (.inr (bigArgs.offer rawStream)) := by
  have hAvail : (bigArgs.offer rawStream).availIn = 600 :=
    List.length_replicate
  have hFew :
      ¬ (bigArgs.offer rawStream).availIn >
        zedcInflAvailInMax := by
    rw [hAvail]
    decide
  have hSeen :
      inflateEobSeen (bigArgs.offer rawStream) =
        bigArgs.offer rawStream := by
    unfold inflateEobSeen
    rw [if_neg (by decide)]
  have hEntry :
      inflateEntry .noFlush (bigArgs.offer rawStream) =
        some (.inr (bigArgs.offer rawStream)) := by
    have hHeader :
        inflateHeader .noFlush (bigArgs.offer rawStream) =
          some (.ok, bigArgs.offer rawStream) := rfl
    unfold inflateEntry inflatePrefix
    rw [if_neg (by decide), if_neg (by decide), hHeader]
    simp only
    rw [if_neg (by decide), if_neg (by decide), hAvail,
      if_neg (by decide)]
  have hFlush :
      inflateFlushOutputBuffer
          { bigArgs.offer rawStream with inpDataOffs := 0 } =
        (.ok, bigArgs.offer rawStream) := rfl
  unfold inflatePrepare
  rw [if_neg hFew, hFlush]
  simp only
  rw [if_neg (by simp), hSeen, hEntry]

theorem honest_big : HonestUpdate bigExchange := by
  have hHonest : HonestExchange bigExchange :=
    ⟨by decide, by decide, by decide +kernel,
      by decide +kernel, by decide, by decide,
      by decide +kernel⟩
  exact ⟨hHonest.orIdle, by decide +kernel⟩

/- All the input is copied, since there is output space. -/
theorem treeArea_overrun :
    InflateRun noFlags .defl [] rawStream ∧
    inflatePrepare .noFlush (bigArgs.offer rawStream) =
      some (.inr (bigArgs.offer rawStream)) ∧
    inflateExecute .noFlush bigArgs.env
        (bigArgs.offer rawStream) =
      (.done bigExchange, bigSent) ∧
    HonestUpdate bigExchange ∧
    ¬ AllInside
      (updateWrites (getInflateAsv oneBitResp bigSent)) := by
  refine ⟨Run.start, prepare_big, rfl, honest_big, ?_⟩
  decide +kernel

/- Eight bytes that are only collected. -/
def collectArgs : InflateArgs where
  nextIn := twoBlocks.window 0 8
  availOut := 16
  flush := .noFlush
  env := ⟨fun _ _ => quietResp⟩

def collectLabel : InflateLabel where
  before := rawStream
  op := .inflate collectArgs
  rc := .ok

theorem collect_run :
    InflateRun noFlags .defl ([] ++ [collectLabel])
      waitingStream := by
  refine Run.next Run.start ⟨rfl, ?_⟩
  rfl

theorem collect_honest :
    ∀ l ∈ [] ++ [collectLabel], ∀ ex,
      l.exchange = some ex → HonestOrIdle ex := by
  intro l hMem ex hEx
  rw [List.nil_append, List.mem_singleton] at hMem
  subst hMem
  cases hEx
  exact ⟨fun hSome => absurd rfl hSome, fun _ => rfl⟩

/- With nine bytes there is room for what is left of them. -/
theorem treeArea_inside_nine :
    AllInside
      (updateWrites
        (getInflateAsv onEobResp (moreSent onEobResp))) := by
  have hRoom : TreeFits (moreExchange onEobResp) :=
    ⟨by decide, by decide, by decide⟩
  have hNow : HonestUpdate (moreExchange onEobResp) :=
    ⟨(honestMore_more (Or.inr rfl)).honest.orIdle,
      by decide⟩
  exact ((@treeArea_inside_iff noFlags .defl _ _ _ _
    { moreArgs with env := ⟨fun _ _ => onEobResp⟩ } _
    collect_run collect_honest (prepare_more onEobResp) rfl
    hNow).mpr (Or.inr (Or.inr hRoom))).1

end Session
