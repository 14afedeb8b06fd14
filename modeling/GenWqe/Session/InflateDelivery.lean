import GenWqe.Hardware.InflateEnds
import GenWqe.Session.Inflate

/-
  The order of the output of `h_inflate`: what the caller has,
  what waits in the internal buffer and what is parked at the
  end of the dictionary are what the card has produced.

  Key definitions include:
    * `InflExchange.produced`, `OutputReported`
    * `ParksSaved`, `SkipParksNothing`
    * `outputSoFar`, `sentSince`
    * `DeliveredInOrder`

  Main results:
    * `zedcInflate_delivers`
    * `hInflateRound_onward`
    * `delivered_in_order`
-/

------------------------------------------------------------
-- The Output of the Card
------------------------------------------------------------

namespace Zedc

open Session

/-
  What an exchange has produced: the bytes in the output
  buffer, and those for which no space was left, which are the
  last ones of the dictionary.
-/
def InflExchange.produced (ex : InflExchange) : List UInt8 :=
  ex.resp.outBuff.window 0 ex.resp.outpReturned.toNat ++
    ex.resp.outDict.window
      (ex.resp.outDictOffs.toNat +
        ex.resp.outDictUsed.toNat -
        ex.resp.obytesInDict.toNat)
      ex.resp.obytesInDict.toNat

/- The bytes of the exchange the results of which were taken. -/
def InflRet.produced (ret : InflRet) : List UInt8 :=
  ret.exchange.elim [] InflExchange.produced

/-
  What a card says about its output: it fits into the output
  buffer, and bytes that do not are within the dictionary.
  Nothing processed is nothing produced.
-/
structure OutputReported (ex : InflExchange) : Prop where
  fits :
    ex.resp.outpReturned.toNat ≤ ex.req.outBuffLen
  parked :
    ex.resp.obytesInDict.toNat ≤ ex.resp.outDictUsed.toNat
  nothing :
    ex.resp.inpProcessed = 0 → ex.resp.procBits = 0 →
      ex.resp.outpReturned = 0 ∧ ex.resp.obytesInDict = 0

/-
  A dictionary that is not saved has no byte parked in it:
  nobody would write the page from which it is given out.
-/
def ParksSaved (ex : InflExchange) : Prop :=
  ex.req.saveDict = false → ex.resp.obytesInDict = 0

/- Parked bytes are within the dictionary. -/
def ParkedInside (s : InflStream) : Prop :=
  s.dict.obytesInDict ≤ s.dict.dictLen

/- Output was stored or parked behind what was there. -/
structure Delivers
    (s s' : InflStream) (bs : List UInt8) : Prop where
  output :
    s'.nextOut ++ s'.dict.pending =
      s.nextOut ++ s.dict.pending ++ bs
  inside : ParkedInside s'

theorem Delivers.refl
    {s : InflStream}
    (hInside : ParkedInside s) :
    Delivers s s [] :=
  ⟨(List.append_nil _).symm, hInside⟩

theorem Delivers.trans
    {s s₁ s₂ : InflStream}
    {bs bs' : List UInt8}
    (hFirst : Delivers s s₁ bs)
    (hNext : Delivers s₁ s₂ bs') :
    Delivers s s₂ (bs ++ bs') := by
  refine ⟨?_, hNext.inside⟩
  rw [hNext.output, hFirst.output, List.append_assoc]

/- Only what is stored and the dictionary are looked at. -/
theorem Delivers.congr
    {s s₁ s₂ : InflStream}
    {bs : List UInt8}
    (hDelivers : Delivers s s₁ bs)
    (hOut : s₂.nextOut = s₁.nextOut)
    (hDict : s₂.dict = s₁.dict) :
    Delivers s s₂ bs := by
  refine ⟨?_, ?_⟩
  · rw [hOut, hDict]
    exact hDelivers.output
  · unfold ParkedInside
    rw [hDict]
    exact hDelivers.inside

/- Taking the first parked bytes leaves the others. -/
theorem DictArea.pending_take
    {d : DictArea}
    {n : Nat}
    (hInside : d.obytesInDict ≤ d.dictLen)
    (hLe : n ≤ d.obytesInDict) :
    { d with
      obytesInDict := d.obytesInDict - n }.pending =
        d.pending.drop n := by
  unfold DictArea.pending
  rw [ByteMem.drop_window]
  congr 1
  simp only
  omega

theorem Flushed.delivers
    {s s₁ : InflStream}
    {n : Nat}
    (hFlushed : Flushed s s₁ n)
    (hInside : ParkedInside s) :
    Delivers s s₁ [] := by
  unfold ParkedInside at hInside
  rw [hFlushed.strm]
  refine ⟨?_, ?_⟩
  · have hRest :=
      DictArea.pending_take hInside hFlushed.pending
    have hParts : s.dict.pending.take n ++
        s.dict.pending.drop n = s.dict.pending :=
      List.take_append_drop n _
    simp only [InflStream.giveOut]
    rw [hRest, List.append_assoc, hParts, List.append_nil]
  · simp only [ParkedInside, InflStream.giveOut]
    omega

/- Before a DDCB, parked bytes are given out in order. -/
theorem inflatePrepare_delivers
    {flush : Flush}
    {s : InflStream}
    {result : Sum (Rc × InflStream) InflStream}
    (hInside : ParkedInside s)
    (hPrepare : inflatePrepare flush s = some result) :
    Delivers s (preparedInfl result) [] := by
  have hHeader :
      ∀ {s₁ s₂ : InflStream} {n : Nat} {rc : Rc},
        Flushed s s₁ n → HeaderDone flush s₁ s₂ rc →
          Delivers s s₂ [] := by
    intro s₁ s₂ n rc hFlushed hDone
    rcases (inflateHeader_passed hDone).1 with ⟨k, hPassed⟩
    apply (hFlushed.delivers hInside).congr
    · exact (congrArg InflStream.nextOut hPassed.strm :)
    · exact (inflateHeader_side hDone).1
  cases inflatePrepare_outcome hPrepare with
  | tooLarge _ => exact .refl hInside
  | overrun _ _ =>
      exact (Delivers.refl hInside).congr rfl rfl
  | @trailer s₁ n _ hFlushed _ =>
      apply (hFlushed.delivers hInside).congr
      · rcases
          (inflateTrailer_passed (inflateEobSeen s₁)).1 with
          ⟨k, hPassed⟩
        have hOut :=
          congrArg InflStream.nextOut hPassed.strm
        have hSeen :=
          congrArg Account.output (account_inflateEobSeen s₁)
        exact hOut.trans hSeen
      · exact inflateTrailer_dict s₁
  | full _ hFlushed _ _ => exact hFlushed.delivers hInside
  | header _ hFlushed _ _ hDone _ => exact hHeader hFlushed hDone
  | block _ hFlushed _ _ hDone _ => exact hHeader hFlushed hDone
  | noInput _ hFlushed _ _ hDone _ _ _ =>
      exact hHeader hFlushed hDone
  | ready _ hFlushed _ _ hDone _ _ =>
      exact hHeader hFlushed hDone

/- A DDCB is made only where no byte is parked any more. -/
theorem inflatePrepare_nonePending
    {flush : Flush}
    {s s₁ : InflStream}
    (hPrepare : inflatePrepare flush s = some (.inr s₁)) :
    s₁.dict.obytesInDict = 0 := by
  generalize hSome : Sum.inr s₁ = result at hPrepare
  cases inflatePrepare_outcome hPrepare with
  | tooLarge _ => cases hSome
  | overrun _ _ => cases hSome
  | trailer _ _ _ => cases hSome
  | full _ _ _ _ => cases hSome
  | header _ _ _ _ _ _ => cases hSome
  | block _ _ _ _ _ _ => cases hSome
  | noInput _ _ _ _ _ _ _ _ => cases hSome
  | @ready s₂ _ n _ hFlushed _ hSpace hDone _ _ =>
      cases hSome
      have hAll := hFlushed.all
      rw [(inflateHeader_side hDone).1]
      rw [hFlushed.strm] at hSpace ⊢
      simp only [InflStream.giveOut] at hSpace ⊢
      omega

------------------------------------------------------------
-- The Output of a DDCB
------------------------------------------------------------

/- Behind the checks the output is stored or rejected. -/
theorem inflateCheck_output
    (ex : InflExchange) (s : InflStream) (rc : Rc) :
    (inflateCheck ex rc s).2.dict = s.dict ∧
      (¬ rc.IsNegative → s.asv.outpReturned ≤ s.availOut →
        (inflateCheck ex rc s).2.nextOut =
          s.nextOut ++
            ex.resp.outBuff.window 0 s.asv.outpReturned) ∧
      (rc.IsNegative →
        (inflateCheck ex rc s).2.nextOut = s.nextOut) := by
  have hFinish :
      ∀ t : InflStream,
        (inflateFinish t).2.dict = t.dict ∧
          (inflateFinish t).2.nextOut = t.nextOut := by
    intro t
    have hSeen :
        (inflateEobSeen (t.advance t.inpDataOffs)).nextOut =
          t.nextOut :=
      congrArg Account.output
        (account_inflateEobSeen (t.advance t.inpDataOffs))
    have hSeenDict :
        (inflateEobSeen (t.advance t.inpDataOffs)).dict =
          t.dict := by
      unfold inflateEobSeen
      split <;> rfl
    unfold inflateFinish
    simp only
    split
    · rcases (inflateTrailer_passed
        (inflateEobSeen (t.advance t.inpDataOffs))).1 with
        ⟨k, hPassed⟩
      have hOut := congrArg InflStream.nextOut hPassed.strm
      exact ⟨inflateTrailer_dict (t.advance t.inpDataOffs),
        hOut.trans hSeen⟩
    · exact ⟨hSeenDict, hSeen⟩
  unfold inflateCheck
  by_cases hRc : rc.IsNegative
  · rw [if_pos hRc]
    exact ⟨rfl, fun hNot => absurd hRc hNot, fun _ => rfl⟩
  rw [if_neg hRc]
  refine ⟨?_, fun _ hFits => ?_, fun hIs => absurd hIs hRc⟩
  · split
    · rfl
    · split
      · rfl
      · exact (hFinish _).1
  · rw [if_neg (Nat.not_lt.mpr hFits)]
    split
    · rfl
    · exact (hFinish _).2

/-
  The dictionary behind an execution: what the card has saved,
  in the page in use.
-/
theorem inflateExecute_saved
    {flush : Flush}
    {env : InflateEnv}
    {s s₁ : InflStream}
    {ex : InflExchange}
    (hExec : inflateExecute flush env s = (.done ex, s₁)) :
    ex.req.saveDict = false ∨
      s₁.dict.dict s₁.dict.wspPage = ex.resp.outDict := by
  have hSaved :
      ∀ resp,
        inflateTry (inflateRequest s) resp = .done ex →
          s₁ =
            inflateSaveDict (inflateRequest s) resp
              (setInflateAsiv s) →
          s₁.dict.dict s₁.dict.wspPage = ex.resp.outDict := by
    intro resp hDone hStrm
    have hEx : ex = ⟨inflateRequest s, resp⟩ := by
      unfold inflateTry at hDone
      split at hDone
      · cases hDone
      · split at hDone
        · cases hDone
        · cases hDone
          rfl
    rw [hStrm, hEx]
    exact if_pos rfl
  have hParts := hExec
  unfold inflateExecute at hParts
  simp only at hParts
  split at hParts
  · split at hParts
    · rename_i ex' hFirst
      split at hParts
      · cases hParts
        left
        unfold inflateTry at hFirst
        split at hFirst
        · cases hFirst
        · split at hFirst
          · cases hFirst
          · cases hFirst
            rfl
      · exact Or.inr (hSaved _ (congrArg Prod.fst hParts)
          (congrArg Prod.snd hParts).symm)
    · rename_i hOther
      exact absurd (congrArg Prod.fst hParts) (hOther ex)
  · exact Or.inr (hSaved _ (congrArg Prod.fst hParts)
      (congrArg Prod.snd hParts).symm)

/- What a DDCB produces comes behind all other output. -/
theorem inflateSubmit_delivers
    {flush : Flush}
    {env : InflateEnv}
    {s : InflStream}
    {ret : InflRet}
    (hNone : s.dict.obytesInDict = 0)
    (hSubmit : inflateSubmit flush env s = some ret)
    (hCard :
      ∀ ex, ret.exchange = some ex → OutputReported ex)
    (hSaves :
      ∀ ex, ret.exchange = some ex → ParksSaved ex) :
    Delivers s ret.strm ret.produced := by
  have hNothing :
      ∀ t : InflStream, t.dict.obytesInDict = 0 →
        t.dict.pending = [] := by
    intro t hZero
    rw [← List.length_eq_zero_iff, DictArea.length_pending]
    exact hZero
  have hTried :
      ∀ {exec : InflExec} {s₁ : InflStream},
        inflateExecute flush env s = (exec, s₁) →
          s₁.nextOut = s.nextOut ∧
            s₁.dict.obytesInDict = 0 := by
    intro exec s₁ hExec
    rcases inflateExecute_tried hExec with ⟨pages, rfl⟩
    exact ⟨rfl, hNone⟩
  cases inflateSubmit_outcome hSubmit with
  | @needDict s₁ hExec =>
      rcases hTried hExec with ⟨hOut, hZero⟩
      refine ⟨?_, ?_⟩
      · have hPending : s₁.dict.pending = [] :=
          hNothing s₁ hZero
        simp only [InflRet.produced, Option.elim_none]
        rw [hPending, hNothing s hNone, hOut]
        simp
      · exact hZero.le.trans (Nat.zero_le _)
  | @failed s₁ hExec =>
      rcases hTried hExec with ⟨hOut, hZero⟩
      refine ⟨?_, ?_⟩
      · simp only [InflRet.produced, Option.elim_none]
        rw [hNothing s₁ hZero, hNothing s hNone, hOut]
        simp
      · exact hZero.le.trans (Nat.zero_le _)
  | @done s₁ s₂ ex rc hExec hUpdate =>
      have hReported : OutputReported ex := hCard ex rfl
      rcases hTried hExec with ⟨hOut, -⟩
      rcases postScratchUpd_changes hUpdate with
        ⟨hChanged, -⟩
      have hDict :
          s₂.dict = (getInflateAsv ex.resp s₁).dict :=
        (congrArg InflStream.dict hChanged.strm :)
      have hOut₂ : s₂.nextOut = s.nextOut :=
        (congrArg InflStream.nextOut hChanged.strm :).trans hOut
      have hReturned :
          s₂.asv.outpReturned = ex.resp.outpReturned.toNat :=
        hChanged.outpReturned
      have hSpace : s₂.availOut = ex.req.outBuffLen := by
        rcases (inflateExecute_done hExec).1 with
          ⟨saveDict, outDictLen, hReq⟩
        rcases inflateExecute_tried hExec with ⟨pages, hStrm⟩
        have hSame : s₂.availOut = s₁.availOut :=
          (congrArg InflStream.availOut hChanged.strm :)
        rw [hSame, hStrm, hReq]
        rfl
      have hParked :
          s₂.dict.pending =
            ex.resp.outDict.window
              (ex.resp.outDictOffs.toNat +
                ex.resp.outDictUsed.toNat -
                ex.resp.obytesInDict.toNat)
              ex.resp.obytesInDict.toNat := by
        rw [hDict]
        rcases inflateExecute_saved hExec with hNot | hSaved
        · have hZero := hSaves ex rfl hNot
          rw [hNothing (getInflateAsv ex.resp s₁)
            (congrArg UInt16.toNat hZero), hZero]
          rfl
        · unfold DictArea.pending
          have hPage :
              (getInflateAsv ex.resp s₁).dict.dict
                (getInflateAsv ex.resp s₁).dict.wspPage =
                ex.resp.outDict := hSaved
          rw [hPage]
          rfl
      rcases inflateCheck_output ex s₂ rc with
        ⟨hDict', hStored, hRejected⟩
      have hInside :
          ParkedInside (inflateCheck ex rc s₂).2 := by
        unfold ParkedInside
        rw [hDict', hDict]
        exact hReported.parked
      refine ⟨?_, hInside⟩
      simp only [InflRet.produced, Option.elim_some]
      rw [hDict', hParked, hNothing s hNone, List.append_nil]
      unfold InflExchange.produced
      by_cases hRc : rc.IsNegative
      · -- only where nothing was processed
        have hZero : ex.resp.outpReturned = 0 ∧
            ex.resp.obytesInDict = 0 := by
          unfold postScratchUpd at hUpdate
          split at hUpdate
          · split at hUpdate
            · cases hUpdate
            · cases hUpdate
              exact absurd hRc (by decide)
          · rename_i hIdle
            rcases not_or.mp hIdle with ⟨hInp, hBits⟩
            have hInp := not_not.mp hInp
            have hBits := not_not.mp hBits
            exact hReported.nothing
              (UInt32.toNat_inj.mp hInp)
              (UInt8.toNat_inj.mp hBits)
        rw [hRejected hRc, hOut₂, hZero.1, hZero.2]
        simp
      · rw [hStored hRc
          (by rw [hReturned, hSpace]; exact hReported.fits),
          hOut₂, hReturned, List.append_assoc]

/- A call gives out parked bytes before any newer ones. -/
theorem zedcInflate_delivers
    {flush : Flush}
    {env : InflateEnv}
    {s : InflStream}
    {ret : InflRet}
    (hInside : ParkedInside s)
    (hCall : zedcInflate flush env s = some ret)
    (hCard :
      ∀ ex, ret.exchange = some ex → OutputReported ex)
    (hSaves :
      ∀ ex, ret.exchange = some ex → ParksSaved ex) :
    Delivers s ret.strm ret.produced := by
  unfold zedcInflate at hCall
  cases hPrepare : inflatePrepare flush s with
  | none =>
      rw [hPrepare] at hCall
      cases hCall
  | some result =>
      have hBefore := inflatePrepare_delivers hInside hPrepare
      rw [hPrepare] at hCall
      rcases result with ⟨rc, s₁⟩ | s₁
      · cases hCall
        exact hBefore
      · have hBehind := inflateSubmit_delivers
          (inflatePrepare_nonePending hPrepare) hCall hCard
          hSaves
        exact hBefore.trans hBehind

/- The first try, without the dictionary. -/
def firstRequest (s : InflStream) : InflReq :=
  { inflateRequest s with saveDict := false, outDictLen := 0 }

/-
  Results without the dictionary are those of a first try in
  which the card has seen the end.
-/
theorem inflateExecute_unsaved
    {flush : Flush}
    {env : InflateEnv}
    {s s₁ : InflStream}
    {ex : InflExchange}
    (hExec : inflateExecute flush env s = (.done ex, s₁))
    (hNot : ex.req.saveDict = false) :
    inflateSkipLastDict flush s = true ∧
      ex.resp = env.accel 0 (firstRequest s) ∧
      ex.resp.failed = false ∧
      finalEob ex.resp.inflStat = true := by
  have hTried :
      ∀ {req : InflReq} {resp : InflResp} {ex' : InflExchange},
        inflateTry req resp = .done ex' →
          ex' = ⟨req, resp⟩ ∧ resp.failed = false := by
    intro req resp ex' hDone
    unfold inflateTry at hDone
    split at hDone
    · cases hDone
    · split at hDone
      · cases hDone
      · rename_i hOk
        cases hDone
        exact ⟨rfl, Bool.not_eq_true _ ▸ hOk⟩
  have hSaved :
      ∀ {resp : InflResp},
        inflateTry (inflateRequest s) resp ≠ .done ex := by
    intro resp hDone
    rw [(hTried hDone).1] at hNot
    exact Bool.noConfusion hNot
  unfold inflateExecute at hExec
  simp only at hExec
  split at hExec
  · rename_i hSkip
    split at hExec
    · rename_i ex' hFirst
      rcases hTried hFirst with ⟨hEx, hOk⟩
      split at hExec
      · rename_i hEnd
        cases hExec
        rw [hEx] at hEnd ⊢
        exact ⟨hSkip, rfl, hOk, hEnd⟩
      · exact absurd (congrArg Prod.fst hExec) hSaved
    · rename_i hOther
      exact absurd (congrArg Prod.fst hExec) (hOther ex)
  · exact absurd (congrArg Prod.fst hExec) hSaved

end Zedc

------------------------------------------------------------
-- The Output of a Stream
------------------------------------------------------------

namespace Session

open Zedc Hardware

/-
  All output so far: what the caller has, what waits in the
  internal buffer, and what is parked in the dictionary.
-/
def outputSoFar (st : HInflate) : List UInt8 :=
  st.strm.out ++ st.s.obuf.waiting ++ st.s.h.dict.pending

/- The calls of `zedc_inflate` made behind a state. -/
def sentSince (st₀ st : HInflate) : List InflateSent :=
  st.calls.drop st₀.calls.length

/- A DDCB is made with both places for output empty. -/
def SubmitsEmpty (sent : InflateSent) : Prop :=
  ∀ s,
    inflatePrepare sent.flush sent.before = some (.inr s) →
      s.dict.obytesInDict = 0 ∧ sent.obuf.waiting = []

/- The card is right about the output of a call. -/
def CardReports (sent : InflateSent) : Prop :=
  ∀ ex, sent.ret.exchange = some ex → OutputReported ex

/- Output of a call is parked only where it is saved. -/
def CallSaves (sent : InflateSent) : Prop :=
  ∀ ex, sent.ret.exchange = some ex → ParksSaved ex

/-
  In front of a call: if it tries without the dictionary
  first, and the card completes that try and has seen the end
  in it, no byte is left that had no space.
-/
def SkipParksNothing (sent : InflateSent) : Prop :=
  ∀ s resp,
    inflatePrepare sent.flush sent.before = some (.inr s) →
      inflateSkipLastDict sent.flush s = true →
      resp = sent.env.accel 0 (firstRequest s) →
      resp.failed = false →
      finalEob resp.inflStat = true →
        resp.obytesInDict = 0

/- The record of a call is that of a call. -/
def Made (sent : InflateSent) : Prop :=
  zedcInflate sent.flush sent.env sent.before =
    some sent.ret

theorem SkipParksNothing.saves
    {sent : InflateSent}
    (hMade : Made sent)
    (hSkip : SkipParksNothing sent) :
    CallSaves sent := by
  intro ex hEx hNot
  unfold Made zedcInflate at hMade
  cases hPrepare :
      inflatePrepare sent.flush sent.before with
  | none =>
      rw [hPrepare] at hMade
      cases hMade
  | some result =>
      rw [hPrepare] at hMade
      rcases result with ⟨rc, s₁⟩ | s₁
      · cases Option.some.inj hMade ▸ hEx
      · generalize sent.ret = ret at hMade hEx
        cases inflateSubmit_outcome hMade with
        | needDict _ => cases hEx
        | failed _ => cases hEx
        | done hExec _ =>
            cases hEx
            rcases inflateExecute_unsaved hExec hNot with
              ⟨hTries, hResp, hOk, hEnd⟩
            exact hSkip s₁ _ hPrepare hTries hResp hOk hEnd

/-
  The calls in `sents` were made, and their output has come
  behind what there was.
-/
structure Onward
    (st st' : HInflate) (sents : List InflateSent) :
    Prop where
  calls : st'.calls = st.calls ++ sents
  made : ∀ sent ∈ sents, Made sent
  empty : ∀ sent ∈ sents, SubmitsEmpty sent
  output :
    ParkedInside st.s.h →
      (∀ sent ∈ sents, CardReports sent) →
      (∀ sent ∈ sents, CallSaves sent) →
        ParkedInside st'.s.h ∧
          outputSoFar st' =
            outputSoFar st ++
              sents.flatMap fun sent => sent.ret.produced

theorem Onward.refl (st : HInflate) : Onward st st [] :=
  ⟨(List.append_nil _).symm, List.forall_mem_nil _,
    List.forall_mem_nil _, fun hInside _ _ =>
      ⟨hInside, (List.append_nil _).symm⟩⟩

theorem Onward.trans
    {st st₁ st₂ : HInflate}
    {sents sents' : List InflateSent}
    (hFirst : Onward st st₁ sents)
    (hNext : Onward st₁ st₂ sents') :
    Onward st st₂ (sents ++ sents') := by
  refine ⟨?_, ?_, ?_, ?_⟩
  · rw [hNext.calls, hFirst.calls, List.append_assoc]
  · intro sent hMem
    rcases List.mem_append.mp hMem with hOld | hNew
    · exact hFirst.made sent hOld
    · exact hNext.made sent hNew
  · intro sent hMem
    rcases List.mem_append.mp hMem with hOld | hNew
    · exact hFirst.empty sent hOld
    · exact hNext.empty sent hNew
  · intro hInside hCard hSaves
    rcases hFirst.output hInside
        (fun sent hMem =>
          hCard sent (List.mem_append_left _ hMem))
        (fun sent hMem =>
          hSaves sent (List.mem_append_left _ hMem)) with
      ⟨hInside₁, hOutput₁⟩
    rcases hNext.output hInside₁
        (fun sent hMem =>
          hCard sent (List.mem_append_right _ hMem))
        (fun sent hMem =>
          hSaves sent (List.mem_append_right _ hMem)) with
      ⟨hInside₂, hOutput₂⟩
    refine ⟨hInside₂, ?_⟩
    rw [hOutput₂, hOutput₁, List.flatMap_append,
      List.append_assoc]

/- Without a call nothing may be produced. -/
theorem Onward.of_output
    {st st' : HInflate}
    (hCalls : st'.calls = st.calls)
    (hOutput :
      ParkedInside st.s.h →
        ParkedInside st'.s.h ∧
          outputSoFar st' = outputSoFar st) :
    Onward st st' [] := by
  refine ⟨?_, List.forall_mem_nil _, List.forall_mem_nil _,
    ?_⟩
  · rw [hCalls, List.append_nil]
  · intro hInside _ _
    rcases hOutput hInside with ⟨hInside', hSame⟩
    refine ⟨hInside', ?_⟩
    rw [hSame, List.flatMap_nil, List.append_nil]

/- Giving out what waits keeps all output in its order. -/
theorem FlushedObuf.onward
    {st st' : HInflate}
    {k : Nat}
    (hFlushed : FlushedObuf st st' k) :
    Onward st st' [] := by
  rw [hFlushed.strm]
  refine Onward.of_output rfl ?_
  intro hInside
  refine ⟨hInside, ?_⟩
  unfold outputSoFar
  simp only [ZStream.take, Obuf.waiting_giveOut]
  rw [List.append_assoc st.strm.out, List.take_append_drop]

/- A stream that has ended gives out parked bytes directly. -/
theorem hInflateDrain_onward
    {st : HInflate}
    (hNext : st.strm.nextOut = st.strm.out.length)
    (hNone : st.s.obuf.waiting = []) :
    Onward st (hInflateDrain st).2 [] := by
  unfold hInflateDrain zedcReadPendingOutput
  by_cases hZero : st.s.h.dict.obytesInDict = 0
  · rw [if_pos hZero]
    refine Onward.of_output rfl ?_
    intro hInside
    refine ⟨hInside, ?_⟩
    unfold outputSoFar
    simp only
    rw [hNext, storeAt_length, List.append_nil]
  rw [if_neg hZero]
  by_cases hOver :
      st.s.h.dict.dictLen < st.s.h.dict.obytesInDict
  · rw [if_pos hOver]
    exact Onward.refl st
  rw [if_neg hOver]
  refine Onward.of_output rfl ?_
  intro hInside
  have hLe :
      min st.strm.availOut st.s.h.dict.obytesInDict ≤
        st.s.h.dict.obytesInDict :=
    Nat.min_le_right _ _
  refine ⟨?_, ?_⟩
  · unfold ParkedInside at hInside ⊢
    simp only
    omega
  · have hRest := DictArea.pending_take hInside hLe
    unfold outputSoFar
    simp only
    rw [hRest, hNext, storeAt_length, hNone,
      List.append_nil, List.append_nil, List.append_assoc,
      List.take_append_drop]

section Calls

variable {disabled internal : Bool} {flush : Flush}

/- The call of the accelerator. -/
theorem hInflateSent_onward
    {env : InflateEnv}
    {st st' : HInflate}
    (hNext : st.strm.nextOut = st.strm.out.length)
    (hNone : st.s.obuf.waiting = [])
    (hSent : hInflateSent internal flush env st = some st') :
    ∃ sents, Onward st st' sents := by
  rcases hInflateSent_some hSent with
    ⟨ret, hCall, hCalls, hH, -, hState⟩
  refine ⟨_, hCalls, ?_, ?_, ?_⟩
  · intro sent hMem
    cases List.mem_singleton.mp hMem
    exact hCall
  · intro sent hMem s hSubmits
    cases List.mem_singleton.mp hMem
    exact ⟨inflatePrepare_nonePending hSubmits, hNone⟩
  · intro hInside hCard hSaves
    have hDelivers : Delivers (hInflateOffer internal st)
        ret.strm ret.produced :=
      zedcInflate_delivers hInside hCall
        (hCard _ (List.mem_singleton_self _))
        (hSaves _ (List.mem_singleton_self _))
    have hMoves := zedcInflate_moves hCall
    rcases hMoves.output_prefix with ⟨new, hNew⟩
    have hNew : (hInflateOffer internal st).nextOut ++ new =
        ret.strm.nextOut := hNew
    have hStored :
        newInflOutput (hInflateOffer internal st) ret.strm =
          new := by
      unfold newInflOutput
      rw [← hNew, List.drop_left]
    have hBytes : new ++ ret.strm.dict.pending =
        st.s.h.dict.pending ++ ret.produced := by
      have hOutput := hDelivers.output
      rw [← hNew, List.append_assoc, List.append_assoc]
        at hOutput
      exact List.append_cancel_left hOutput
    have hTo :
        st'.strm.out ++ st'.s.obuf.waiting =
          st.strm.out ++ new := by
      rw [hState]
      cases internal with
      | true =>
          simp only [if_true]
          rw [← hStored]
          rfl
      | false =>
          simp only [Bool.false_eq_true, if_false]
          rw [← hStored]
          simp only [hInflateGive, hInflateTake, fixupInflate,
            Obuf.waiting] at hNone ⊢
          rw [hNone, hNext, storeAt_length, List.append_nil]
    refine ⟨?_, ?_⟩
    · rw [hH]
      exact hDelivers.inside
    · unfold outputSoFar
      rw [hTo, hH, hNone, List.append_nil, List.append_assoc,
        hBytes]
      simp

/- The check for the end leaves the output alone. -/
theorem hInflateCheckEnd_onward
    {st st' : HInflate}
    (hCheck : hInflateCheckEnd disabled st = some st') :
    Onward st st' [] := by
  unfold hInflateCheckEnd at hCheck
  split at hCheck
  · rcases checkStreamEnd_checked disabled st.s.h st.strm with
      ⟨result, hResult, hChecked⟩
    rw [hResult] at hCheck
    cases hChecked with
    | home =>
        cases hCheck
        exact Onward.refl st
    | found _ _ _ _ =>
        cases hCheck
        refine Onward.of_output rfl ?_
        intro hInside
        simp only
        split <;> exact ⟨hInside, rfl⟩
  · cases hCheck
    exact Onward.refl st

theorem hInflateResult_onward
    {st : HInflate}
    {result : Sum (Rc × HInflate) HInflate}
    (hNext : st.strm.nextOut = st.strm.out.length)
    (hResult : hInflateResult disabled st = some result) :
    Onward st (roundState result) [] := by
  cases hInflateResult_outcome hNext hResult with
  | error hFlushed _ => exact FlushedObuf.onward hFlushed
  | checked hFlushed _ hCheck =>
      rw [roundState_end]
      exact (FlushedObuf.onward hFlushed).trans
        (hInflateCheckEnd_onward hCheck)

/- A round keeps all output in its order. -/
theorem hInflateRound_onward
    {env : InflateEnv}
    {st : HInflate}
    {result : Sum (Rc × HInflate) HInflate}
    (hReady : RoundReady st)
    (hRound :
      hInflateRound disabled internal flush env st =
        some result) :
    ∃ sents, Onward st (roundState result) sents := by
  have hStart := hInflateStart_outcome flush hReady.obuf
    hReady.atEnd
  unfold hInflateRound at hRound
  generalize hInflateStart flush st = start
    at hStart hRound
  cases hStart with
  | drain hFlushed _ hNone =>
      cases hRound
      exact ⟨_, (FlushedObuf.onward hFlushed).trans
        (hInflateDrain_onward
          (hFlushed.nextOut hReady.atEnd) hNone)⟩
  | full hFlushed _ =>
      cases hRound
      exact ⟨_, FlushedObuf.onward hFlushed⟩
  | noInput hFlushed _ _ _ _ =>
      cases hRound
      exact ⟨_, FlushedObuf.onward hFlushed⟩
  | @send st₁ k hFlushed _ hNone _ _ =>
      simp only at hRound
      have hReady₁ := hFlushed.ready hReady
      cases hSent : hInflateSent internal flush env st₁ with
      | none =>
          rw [hSent] at hRound
          cases hRound
      | some st₂ =>
          rw [hSent] at hRound
          rcases hInflateSent_onward hReady₁.atEnd hNone
            hSent with ⟨sents, hOnward⟩
          have hReady₂ : RoundReady st₂ :=
            (hInflateSent_kept hReady₁ hSent).2.1
          have hBehind :=
            hInflateResult_onward hReady₂.atEnd hRound
          exact ⟨_, ((FlushedObuf.onward hFlushed).trans
            hOnward).trans hBehind⟩

/- A call with any number of rounds. -/
theorem hInflateLoop_onward
    {fuel : Nat}
    {env : Nat → InflateEnv}
    {st : HInflate}
    {ret : Rc × HInflate}
    (hReady : RoundReady st)
    (hLoop :
      hInflateLoop disabled internal flush fuel env st =
        some ret) :
    ∃ sents, Onward st ret.2 sents := by
  refine hInflateLoop_rule
    (fun st₁ =>
      RoundReady st₁ ∧ ∃ sents, Onward st st₁ sents)
    (fun ret => ∃ sents, Onward st ret.2 sents)
    ?_ ⟨hReady, [], Onward.refl st⟩ hLoop
  rintro n st₁ result ⟨hReady₁, sents, hBefore⟩ hRound
  rcases hInflateRound_onward hReady₁ hRound with
    ⟨sents', hOnward⟩
  have hWhole := hBefore.trans hOnward
  cases result with
  | inl ret => exact ⟨_, hWhole⟩
  | inr st₂ =>
      exact ⟨(hInflateRound_on hReady₁ hRound).ready, _,
        hWhole⟩

/- Without an internal buffer nothing waits in it. -/
theorem ObufOk.waiting_of_none
    {o : Obuf}
    (hOk : ObufOk o)
    (hNone : o.total = 0) :
    o.waiting = [] := by
  have hAvail := hOk.avail
  rw [← List.length_eq_zero_iff, Obuf.length_waiting]
  omega

/-
  Without buffering a call is that of a round, but for the
  flags of `data_type`, which stay as they are.
-/
theorem hInflateDirect_sent
    {env : InflateEnv}
    {st : HInflate}
    {ret : Rc × HInflate}
    (hCall : hInflateDirect flush env st = some ret) :
    ∃ st₁,
      hInflateSent false flush env st = some st₁ ∧
        ret.2.calls = st₁.calls ∧ ret.2.s = st₁.s ∧
        ret.2.strm.out = st₁.strm.out := by
  unfold hInflateDirect at hCall
  unfold hInflateSent
  simp only at hCall ⊢
  cases hMade : hInflateCall flush env
      (hInflateOffer false st) st with
  | none =>
      rw [hMade] at hCall
      cases hCall
  | some st₁ =>
      rw [hMade] at hCall
      cases hCall
      exact ⟨_, rfl, rfl, rfl, rfl⟩

theorem hInflateDirect_onward
    {env : InflateEnv}
    {st : HInflate}
    {ret : Rc × HInflate}
    (hReady : RoundReady st)
    (hDirect : st.s.obuf.total = 0)
    (hCall : hInflateDirect flush env st = some ret) :
    ∃ sents, Onward st ret.2 sents := by
  have hNone : st.s.obuf.waiting = [] :=
    ObufOk.waiting_of_none hReady.obuf hDirect
  rcases hInflateDirect_sent hCall with
    ⟨st₁, hSent, hCalls, hS, hOut⟩
  rcases hInflateSent_onward hReady.atEnd hNone hSent with
    ⟨sents, hOnward⟩
  refine ⟨sents ++ [],
    hOnward.trans (Onward.of_output hCalls ?_)⟩
  intro hInside
  unfold outputSoFar
  rw [hS, hOut]
  exact ⟨hInside, rfl⟩

/- Every call of `h_inflate` keeps all output in its order. -/
theorem hInflate_onward
    {fuel : Nat}
    {env : Nat → InflateEnv}
    {st : HInflate}
    {ret : Rc × HInflate}
    (hReady : RoundReady st)
    (hCall : hInflate disabled fuel flush env st = some ret) :
    ∃ sents, Onward st ret.2 sents := by
  unfold hInflate at hCall
  split at hCall
  · rename_i hDirect
    exact hInflateDirect_onward hReady hDirect hCall
  · split at hCall
    · cases hCall
      exact ⟨[], Onward.refl st⟩
    · exact hInflateLoop_onward hReady hCall

/- So does any sequence of calls. -/
theorem hInflate_run_onward
    {st st' : HInflate}
    {calls : List HInflateCall}
    (hOk : ObufOk st.s.obuf)
    (hRun :
      Run (hInflateStep disabled) st
        (calls.map HInflateOp.inflate) st') :
    ObufOk st'.s.obuf ∧ ∃ sents, Onward st st' sents := by
  refine hRun.invariant_of_labels
    (fun _ st₁ =>
      ObufOk st₁.s.obuf ∧ ∃ sents, Onward st st₁ sents)
    (fun op => ∃ call, op = HInflateOp.inflate call)
    ⟨hOk, [], Onward.refl st⟩ ?_ ?_
  · rintro trace st₁ op st₂ ⟨call, rfl⟩
      ⟨hOk₁, sents, hBefore⟩ ⟨fuel, rc, hCall⟩
    have hReady : RoundReady (call.offer st₁) :=
      ⟨hOk₁, atEnd_offer _ _ _⟩
    have hOffered : Onward st₁ (call.offer st₁) [] :=
      Onward.of_output rfl fun hInside => ⟨hInside, rfl⟩
    rcases hInflate_onward hReady hCall with
      ⟨sents', hOnward⟩
    exact ⟨(hInflate_books hReady hCall).1, _,
      (hBefore.trans hOffered).trans hOnward⟩
  · intro op hMem
    rcases List.mem_map.mp hMem with ⟨call, -, rfl⟩
    exact ⟨call, rfl⟩

end Calls

------------------------------------------------------------
-- The Order of the Output
------------------------------------------------------------

/-
  Output is given out in the order in which it was produced,
  and each byte once: the caller has the first bytes, the
  others wait. New output is asked for only where nothing is
  parked or waits, and no round finds the internal buffer not
  empty in front of its call.
-/
structure DeliveredInOrder
    (disabled : Bool) (st st' : HInflate) : Prop where
  output :
    st'.strm.out ++ st'.s.obuf.waiting ++
        st'.s.h.dict.pending =
      st.strm.out ++ st.s.obuf.waiting ++
        (sentSince st st').flatMap
          fun sent => sent.ret.produced
  empty : ∀ sent ∈ sentSince st st', SubmitsEmpty sent
  noError :
    ∀ (call : HInflateCall) n st₁ st₂,
      LoopReaches
          (hInflateRounds disabled
            (useInternalBuffer (call.offer st'))
            call.flush call.env)
          (call.offer st') n st₁ →
        hInflateStart call.flush st₁ ≠
          .inl (.dataError, st₂)

/- In front of its call a round never answers an error. -/
theorem hInflateStart_noError
    {flush : Flush}
    {st st' : HInflate}
    (hReady : RoundReady st) :
    hInflateStart flush st ≠ .inl (.dataError, st') := by
  intro hError
  have hStart := hInflateStart_outcome flush hReady.obuf
    hReady.atEnd
  rw [hError] at hStart
  generalize hSome : Sum.inl (Rc.dataError, st') = start
    at hStart
  cases hStart with
  | @drain st₁ k hFlushed hRc hNone =>
      have hDrained := congrArg Prod.fst (Sum.inl.inj hSome)
      unfold hInflateDrain at hDrained
      split at hDrained
      · cases hDrained
      · simp only at hDrained
        split at hDrained <;> cases hDrained
  | full _ _ => cases hSome
  | noInput _ _ _ _ _ => cases hSome
  | send _ _ _ _ _ => cases hSome

/-
  From any state in which nothing is parked, as in that of a
  stream just set up, any sequence of calls of `h_inflate`
  delivers what the card produces in its order, as long as no
  try without the dictionary leaves a byte in it: the code
  takes the end for enough, and does not look.
-/
theorem delivered_in_order
    {disabled : Bool}
    {cfg : InflateConfig}
    {st st' : HInflate}
    {calls : List HInflateCall}
    (hReach : Reachable disabled cfg st)
    (hNone : st.s.h.dict.obytesInDict = 0)
    (hRun :
      Run (hInflateStep disabled) st
        (calls.map HInflateOp.inflate) st')
    (hCard : ∀ sent ∈ sentSince st st', CardReports sent)
    (hSkip :
      ∀ sent ∈ sentSince st st', SkipParksNothing sent) :
    DeliveredInOrder disabled st st' := by
  rcases hInflate_run_onward (obufOk_of_reachable hReach) hRun
    with ⟨hOk', sents, hOnward⟩
  have hSince : sentSince st st' = sents := by
    unfold sentSince
    rw [hOnward.calls, List.drop_left]
  rw [hSince] at hCard hSkip
  have hSaves : ∀ sent ∈ sents, CallSaves sent :=
    fun sent hMem =>
      (hSkip sent hMem).saves (hOnward.made sent hMem)
  refine ⟨?_, ?_, ?_⟩
  · have hInside : ParkedInside st.s.h :=
      hNone.le.trans (Nat.zero_le _)
    have hPending : st.s.h.dict.pending = [] := by
      rw [← List.length_eq_zero_iff,
        DictArea.length_pending]
      exact hNone
    have hOutput := (hOnward.output hInside hCard hSaves).2
    unfold outputSoFar at hOutput
    rw [hSince, hOutput, hPending, List.append_nil]
  · rw [hSince]
    exact hOnward.empty
  · intro call n st₁ st₂ hReaches
    apply hInflateStart_noError
    apply hReaches.invariant (fun _ st => RoundReady st)
    · exact ⟨hOk', atEnd_offer _ _ _⟩
    · intro n s s' hReady hRound
      exact (hInflateRound_on hReady hRound).ready

/- The call that leaves a byte in the dictionary. -/
def parkingCall : HInflateCall where
  nextIn := [0x4a, 0x4c, 0x02, 0x0c, 0x00]
  availOut := 1
  flush := .noFlush
  env := fun _ => ⟨fun _ _ => parkedResp⟩

theorem delivered_in_order_parked :
    DeliveredInOrder false rawInflate drainedRet.2 ∧
      drainedRet.2.strm.out = [0x61, 0x62] := by
  have hRun :
      Run (hInflateStep false) rawInflate
        ([parkingCall, drainCall].map HInflateOp.inflate)
        drainedRet.2 := by
    have hParked : hInflateStep false rawInflate
        (.inflate parkingCall) parkedState :=
      ⟨1, _, HInflateOp.run_ret (by decide)⟩
    have hDrained : hInflateStep false parkedState
        (.inflate drainCall) drainedRet.2 :=
      ⟨1, _, HInflateOp.run_ret (by decide)⟩
    exact (Run.start.next hParked).next hDrained
  have hSince :
      ∃ sent req,
        sentSince rawInflate drainedRet.2 = [sent] ∧
          sent.ret.exchange = some ⟨req, parkedResp⟩ ∧
          req.outBuffLen = 1 ∧ sent.flush = .noFlush :=
    ⟨_, _, rfl, rfl, rfl, rfl⟩
  rcases hSince with ⟨sent, req, hSent, hEx, hLen, hFlush⟩
  refine ⟨delivered_in_order reachable_rawInflate rfl hRun
    ?_ ?_, rfl⟩
  · intro sent' hMem ex hEx'
    rw [hSent] at hMem
    cases List.mem_singleton.mp hMem
    rw [hEx] at hEx'
    cases hEx'
    have hProcessed : parkedResp.inpProcessed ≠ 0 := by decide
    refine ⟨?_, Nat.le_succ 1,
      fun hNone => absurd hNone hProcessed⟩
    rw [hLen]
    exact Nat.le_refl 1
  · intro sent' hMem s resp _ hTries
    rw [hSent] at hMem
    cases List.mem_singleton.mp hMem
    unfold inflateSkipLastDict at hTries
    rw [hFlush] at hTries
    simp at hTries

------------------------------------------------------------
-- A Byte That Was Not Saved
------------------------------------------------------------

/-
  The last byte of twelve, which did not fit into the output
  and is left in the dictionary.
-/
def lastByteResp : InflResp :=
  { quietResp with
    inflStat := 0x26
    inpProcessed := 5
    outpReturned := 11
    outDictUsed := 12
    obytesInDict := 1
    outBuff := fun _ => 0x61
    outDict := fun _ => 0x61 }

def skipConfig : InflateConfig :=
  { plainConfig with flgSkipLastDict := true }

/- A raw stream that may leave out the last dictionary. -/
def skipInflate : HInflate :=
  (hInflateInit2 skipConfig (-15) ZStream.initial).getD
    rawInflate

/- Twelve times a letter, with space for eleven. -/
def elevenCall : HInflateCall where
  nextIn := [0x4b, 0x4c, 0x44, 0x00, 0x00]
  availOut := 11
  flush := .finish
  env := fun _ => ⟨fun _ _ => lastByteResp⟩

def elevenState : HInflate :=
  ((HInflateOp.inflate elevenCall).ret false 1 skipInflate).2

/- Space for the twelfth. -/
def twelfthCall : HInflateCall where
  nextIn := []
  availOut := 1
  flush := .finish
  env := fun _ => ⟨fun _ _ => quietResp⟩

def twelfthRet : Rc × HInflate :=
  (HInflateOp.inflate twelfthCall).ret false 1 elevenState

/-
  The card has produced a letter twelve times, and the twelfth
  byte given out is what was in the page before.
-/
theorem last_byte_lost :
    Reachable false skipConfig skipInflate ∧
      skipInflate.s.h.dict.obytesInDict = 0 ∧
      Run (hInflateStep false) skipInflate
        ([elevenCall, twelfthCall].map HInflateOp.inflate)
        twelfthRet.2 ∧
      (∀ sent ∈ sentSince skipInflate twelfthRet.2,
        CardReports sent) ∧
      twelfthRet.1 = .streamEnd ∧
      twelfthRet.2.strm.out =
        List.replicate 11 0x61 ++ [0x00] ∧
      (sentSince skipInflate twelfthRet.2).flatMap
          (fun sent => sent.ret.produced) =
        List.replicate 12 0x61 ∧
      ¬ DeliveredInOrder false skipInflate twelfthRet.2 := by
  have hOut : twelfthRet.2.strm.out =
      List.replicate 11 0x61 ++ [0x00] := by decide
  have hProduced :
      (sentSince skipInflate twelfthRet.2).flatMap
          (fun sent => sent.ret.produced) =
        List.replicate 12 0x61 := by decide
  have hInit :
      hInflateInit2 skipConfig (-15) ZStream.initial =
        some skipInflate := rfl
  refine ⟨Reachable.init hInit, rfl, ?_, ?_, by decide, hOut,
    hProduced, ?_⟩
  · have hEleven : hInflateStep false skipInflate
        (.inflate elevenCall) elevenState :=
      ⟨1, _, HInflateOp.run_ret (by decide)⟩
    have hTwelfth : hInflateStep false elevenState
        (.inflate twelfthCall) twelfthRet.2 :=
      ⟨1, _, HInflateOp.run_ret (by decide)⟩
    exact (Run.start.next hEleven).next hTwelfth
  · have hSince :
        ∃ first second req,
          sentSince skipInflate twelfthRet.2 =
              [first, second] ∧
            first.ret.exchange = some ⟨req, lastByteResp⟩ ∧
            req.outBuffLen = 11 ∧
            second.ret.exchange = none :=
      ⟨_, _, _, rfl, rfl, rfl, rfl⟩
    rcases hSince with
      ⟨first, second, req, hBoth, hEx, hLen, hNone⟩
    intro sent hMem ex hSent
    rw [hBoth] at hMem
    rcases List.mem_pair.mp hMem with rfl | rfl
    · rw [hEx] at hSent
      cases hSent
      have hProcessed : lastByteResp.inpProcessed ≠ 0 := by
        decide
      have hParked :
          lastByteResp.obytesInDict.toNat ≤
            lastByteResp.outDictUsed.toNat := by decide
      refine ⟨?_, hParked,
        fun hNothing => absurd hNothing hProcessed⟩
      rw [hLen]
      exact Nat.le_refl 11
    · rw [hNone] at hSent
      cases hSent
  · intro hDelivered
    have hAll := hDelivered.output
    rw [hOut, hProduced] at hAll
    exact absurd hAll (by decide)

end Session
