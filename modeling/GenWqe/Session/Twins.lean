import GenWqe.Session.Dictionary
import GenWqe.Session.SkipDeflate
import GenWqe.Session.Tandem

/-
  Deflate streams that differ in their dictionary pages only,
  and an accelerator that gives both the same responses.

  Key definitions include:
    * `DictTwins`, `SameWindow`
    * `TwinOf`, `Twins`
    * `SameAnswers`, `DictInPage`, `SameResponses`

  Main results:
    * `deflateExecute_twins`, `deflateSubmit_twins`
    * `twins_tandem`, `twins_setUp`
    * `hDeflateShow_lockstep`
-/

------------------------------------------------------------
-- The Pages
------------------------------------------------------------

namespace Session

open Zedc Hardware

/-
  The page in use is the same in all its bytes, or it starts
  with the same dictionary.
-/
def DictTwins
    (pages : Bool → ByteMem) (s : DeflStream) : Prop :=
  (∀ i < zedcDictLen,
    pages s.wspPage i = s.dict s.wspPage i) ∨
  s.wspPage = false ∧ s.outDictOffs = 0 ∧
    ∀ i < s.dictLen.toNat, pages false i = s.dict false i

/- The next DDCB is given the same dictionary. -/
def SameWindow
    (pages : Bool → ByteMem) (s : DeflStream) : Prop :=
  (pages s.wspPage).window s.outDictOffs.toNat
      s.dictLen.toNat =
    (s.dict s.wspPage).window s.outDictOffs.toNat
      s.dictLen.toNat

/-
  The dictionary lies in its page, and no DDCB leaves it out
  and an older page in use.
-/
def DictInPage (s : DeflStream) : Prop :=
  s.flgSkipLastDict = false ∧
    s.outDictOffs.toNat + s.dictLen.toNat ≤ zedcDictLen

/-
  What is known of other pages: as much as the streams need,
  and with `known` that the next DDCB shows no difference.
-/
structure PagesFit
    (known : Prop)
    (pages : Bool → ByteMem)
    (s : DeflStream) : Prop where
  dict : s.flgSkipLastDict = false → DictTwins pages s
  window :
    known → s.flgSkipLastDict = false ∧ SameWindow pages s

/- The same stream, with other pages. -/
def TwinOf (known : Prop) (s t : DeflStream) : Prop :=
  ∃ pages,
    t = overlay s.flgSkipLastDict pages s ∧
      PagesFit known pages s

/-
  An accelerator that gives both streams the same responses:
  what it answers depends on the dictionary at most where
  that is known to be the same.
-/
def SameAnswers
    (known : Prop) (env : DeflateEnv) : Prop :=
  ∀ n req (m : ByteMem),
    (known →
      m.window 0 req.inDictLen.toNat =
        req.inDict.window 0 req.inDictLen.toNat) →
      env.accel n { req with inDict := m } = env.accel n req

section Twin

variable {known : Prop} {pages : Bool → ByteMem}
variable {s : DeflStream} {flush : Flush} {env : DeflateEnv}

/- A whole page in common is all that is needed. -/
theorem PagesFit.of_page
    (hPage :
      s.flgSkipLastDict = false →
        pages s.wspPage = s.dict s.wspPage)
    (hKnown : known → s.flgSkipLastDict = false) :
    PagesFit known pages s := by
  constructor
  · intro hNoSkip
    left
    intro i _
    rw [hPage hNoSkip]
  · intro hIs
    refine ⟨hKnown hIs, ?_⟩
    unfold SameWindow
    rw [hPage (hKnown hIs)]

theorem PagesFit.kept
    {s' : DeflStream}
    (hFit : PagesFit known pages s)
    (hKept : DeflDictKept s s')
    (hSkip : s'.flgSkipLastDict = s.flgSkipLastDict) :
    PagesFit known pages s' := by
  constructor
  · intro hNoSkip
    have hDict := hFit.dict (hSkip ▸ hNoSkip)
    unfold DictTwins at hDict ⊢
    rw [hKept.wspPage, hKept.dict, hKept.dictLen,
      hKept.outDictOffs]
    exact hDict
  · intro hIs
    rcases hFit.window hIs with ⟨hNoSkip, hWindow⟩
    refine ⟨hSkip.trans hNoSkip, ?_⟩
    unfold SameWindow at hWindow ⊢
    rw [hKept.wspPage, hKept.dict, hKept.dictLen,
      hKept.outDictOffs]
    exact hWindow

/- What lies in its page is seen in full. -/
theorem DictTwins.window
    (hTwins : DictTwins pages s)
    (hIn :
      s.outDictOffs.toNat + s.dictLen.toNat ≤ zedcDictLen) :
    SameWindow pages s := by
  unfold SameWindow
  apply List.ext_getElem?
  intro i
  rw [ByteMem.window_getElem?, ByteMem.window_getElem?]
  by_cases hLt : i < s.dictLen.toNat
  · rw [if_pos hLt, if_pos hLt]
    rcases hTwins with hPage | ⟨hFirst, hOffs, hStart⟩
    · rw [hPage _ (by omega)]
    · rw [hFirst, hOffs]
      have hSame := hStart i hLt
      rw [UInt8.toNat_zero, Nat.zero_add, hSame]
  · rw [if_neg hLt, if_neg hLt]

------------------------------------------------------------
-- One Submission
------------------------------------------------------------

/- The requests of both streams get the same response. -/
theorem accel_twins
    (hEnv : SameAnswers known env)
    (hFit : PagesFit known pages s)
    (n : Nat) :
    env.accel n
          (deflateRequest flush
            (overlay s.flgSkipLastDict pages s)) =
        env.accel n (deflateRequest flush s) ∧
      env.accel n
          (fullRequest flush
            (overlay s.flgSkipLastDict pages s)) =
        env.accel n (fullRequest flush s) := by
  have hWindow :
      known →
        ByteMem.window
            (fun i =>
              pages s.wspPage (s.outDictOffs.toNat + i))
            0 s.dictLen.toNat =
          ByteMem.window
            (fun i =>
              s.dict s.wspPage (s.outDictOffs.toNat + i))
            0 s.dictLen.toNat := by
    intro hIs
    have hSame := (hFit.window hIs).2
    unfold SameWindow at hSame
    simpa [ByteMem.window] using hSame
  exact ⟨hEnv n (deflateRequest flush s) _ hWindow,
    hEnv n (fullRequest flush s) _ hWindow⟩

/- Both streams get the same and have the same page in use. -/
structure ExecTwins
    (s : DeflStream)
    (a b : Option DeflExchange × DeflStream) : Prop where
  resp : b.1.map (·.resp) = a.1.map (·.resp)
  skip : a.2.flgSkipLastDict = s.flgSkipLastDict
  strm :
    ∃ pages,
      b.2 = overlay s.flgSkipLastDict pages a.2 ∧
        (s.flgSkipLastDict = false →
          pages a.2.wspPage = a.2.dict a.2.wspPage)

theorem deflateExecute_twins
    (hEnv : SameAnswers known env)
    (hFit : PagesFit known pages s) :
    ExecTwins s (deflateExecute flush env s)
      (deflateExecute flush env
        (overlay s.flgSkipLastDict pages s)) := by
  rcases @accel_twins known pages s flush env hEnv hFit 0
    with ⟨hFirst, _⟩
  rcases @accel_twins known pages s flush env hEnv hFit 1
    with ⟨_, hSecond⟩
  have hSkipSame :
      deflateSkipLastDict flush
          (overlay s.flgSkipLastDict pages s) =
        deflateSkipLastDict flush s := rfl
  have hAbsorbed :
      ∀ resp : DeflResp,
        resp.absorbed (overlay s.flgSkipLastDict pages s) =
          resp.absorbed s := fun _ => rfl
  have hNew :
      ∀ (outDict : ByteMem) (pages : Bool → ByteMem),
        (writtenPage outDict pages s).dict (!s.wspPage) =
          outDict := fun _ _ => if_pos rfl
  have hWritten :
      ∀ (outDict : ByteMem)
        (found found' : Option DeflExchange),
        found'.map (·.resp) = found.map (·.resp) →
        ExecTwins s (found, writtenPage outDict s.dict s)
          (found',
            writtenPage outDict
              (overlay s.flgSkipLastDict pages s).dict
              (overlay s.flgSkipLastDict pages s)) := by
    intro outDict found found' hResp
    refine ⟨hResp, rfl,
      (writtenPage outDict pages s).dict, rfl, fun _ => ?_⟩
    exact (hNew outDict pages).trans
      (hNew outDict s.dict).symm
  have hToggled :
      ∀ (found found' : Option DeflExchange),
        deflateSkipLastDict flush s = true →
        found'.map (·.resp) = found.map (·.resp) →
        ExecTwins s (found, { s with wspPage := !s.wspPage })
          (found',
            { overlay s.flgSkipLastDict pages s with
              wspPage :=
                !(overlay s.flgSkipLastDict
                  pages s).wspPage }) := by
    intro found found' hSkip hResp
    refine ⟨hResp, rfl, pages, rfl, fun hNoSkip => ?_⟩
    unfold deflateSkipLastDict at hSkip
    rw [hNoSkip] at hSkip
    cases hSkip
  by_cases hSkip : deflateSkipLastDict flush s = true
  swap
  · rw [Bool.not_eq_true] at hSkip
    rw [deflateExecute_saving env hSkip,
      deflateExecute_saving env (hSkipSame.trans hSkip),
      hFirst]
    apply hWritten
    split <;> rfl
  · rw [deflateExecute_skipping env hSkip,
      deflateExecute_skipping env (hSkipSame.trans hSkip),
      hFirst, hSecond, hAbsorbed]
    split
    · exact hToggled _ _ hSkip rfl
    · split
      · exact hToggled _ _ hSkip rfl
      · apply hWritten
        split <;> rfl

/- The flag stays as it is, and so do the pages. -/
theorem flgSkipLastDict_deflateProcessResults
    (resp : DeflResp) (s : DeflStream) :
    (deflateProcessResults resp s).2.flgSkipLastDict =
      s.flgSkipLastDict := by
  unfold deflateProcessResults
  simp only
  split_ifs <;> rfl

theorem flgSkipLastDict_deflateFlush
    (flush : Flush) (s : DeflStream) :
    (deflateFlush flush s).flgSkipLastDict =
      s.flgSkipLastDict :=
  (congrArg DeflStream.flgSkipLastDict
    (inputSide_deflateFlush flush s) :)

theorem flgSkipLastDict_deflatePrepare
    (flush : Flush) (now : UInt32) (s : DeflStream) :
    (preparedStrm
      (deflatePrepare flush now s)).flgSkipLastDict =
        s.flgSkipLastDict := by
  have hSame :=
    deflatePrepare_overlay s.flgSkipLastDict s.dict s flush
      now
  change deflatePrepare flush now s = _ at hSame
  rw [hSame]
  cases deflatePrepare flush now s <;> rfl

/- Behind its responses both streams go on the same. -/
theorem deflateSubmit_twins
    (hEnv : SameAnswers known env)
    (hFit : PagesFit known pages s) :
    (deflateSubmit flush env
        (overlay s.flgSkipLastDict pages s)).rc =
      (deflateSubmit flush env s).rc ∧
    TwinOf known (deflateSubmit flush env s).strm
      (deflateSubmit flush env
        (overlay s.flgSkipLastDict pages s)).strm := by
  have hExec :=
    @deflateExecute_twins known pages s flush env hEnv hFit
  have hKnown : known → s.flgSkipLastDict = false :=
    fun hIs => (hFit.window hIs).1
  unfold deflateSubmit
  generalize deflateExecute flush env s = a at *
  generalize
    deflateExecute flush env
      (overlay s.flgSkipLastDict pages s) = b at *
  rcases a with ⟨found, s₁⟩
  rcases b with ⟨found', t₁⟩
  rcases hExec with ⟨hResp, hSkip, pages', hStrm, hPage⟩
  simp only at hResp hSkip hStrm hPage
  subst hStrm
  rw [← hSkip] at hPage hKnown ⊢
  -- what comes next keeps the page in use and the flag
  have hTwin :
      ∀ s₂ : DeflStream,
        s₂.dict = s₁.dict →
        s₂.wspPage = s₁.wspPage →
        s₂.flgSkipLastDict = s₁.flgSkipLastDict →
        TwinOf known s₂
          (overlay s₁.flgSkipLastDict pages' s₂) := by
    intro s₂ hDict hWsp hFlag
    refine ⟨pages', by rw [hFlag], .of_page ?_ ?_⟩
    · rw [hDict, hWsp, hFlag]
      exact hPage
    · rw [hFlag]
      exact hKnown
  cases found with
  | none =>
      cases found' with
      | none => exact ⟨rfl, hTwin s₁ rfl rfl rfl⟩
      | some ex' => cases hResp
  | some ex =>
      cases found' with
      | none => cases hResp
      | some ex' =>
          have hSame : ex'.resp = ex.resp :=
            Option.some.inj hResp
          have hTaken :
              deflateTakeAsv ex.resp
                  (overlay s₁.flgSkipLastDict pages' s₁) =
                overlay s₁.flgSkipLastDict pages'
                  (deflateTakeAsv ex.resp s₁) := rfl
          simp only
          rw [hSame, hTaken, deflateProcessResults_overlay]
          by_cases hOffs : ex.resp.outDictOffs ≥ 16
          · have hBad :
                (deflateTakeAsv ex.resp s₁).outDictOffs ≥
                  16 := hOffs
            simp only [overlay_outDictOffs, if_pos hBad]
            exact ⟨trivial, hTwin _ rfl rfl rfl⟩
          · have hGood :
                ¬ (deflateTakeAsv ex.resp s₁).outDictOffs ≥
                  16 := hOffs
            simp only [overlay_outDictOffs, if_neg hGood]
            have hKept :=
              deflateProcessResults_dictKept ex.resp
                (deflateTakeAsv ex.resp s₁)
            have hFlag :=
              flgSkipLastDict_deflateProcessResults ex.resp
                (deflateTakeAsv ex.resp s₁)
            generalize
              deflateProcessResults ex.resp
                (deflateTakeAsv ex.resp s₁) = result at *
            rcases result with ⟨rc, s₂⟩
            simp only [Prod.map_apply, id_eq]
            by_cases hNegative : rc.IsNegative
            · simp only [if_pos hNegative]
              exact ⟨trivial,
                hTwin s₂ hKept.dict hKept.wspPage hFlag⟩
            · simp only [if_neg hNegative]
              rcases deflateWindUp_overlay
                s₁.flgSkipLastDict pages' s₂ flush ex ex' with
                ⟨hRc, hStrm⟩
              rcases deflateFlush_dict flush s₂ with
                ⟨hDict, hWsp, _⟩
              refine ⟨hRc, ?_⟩
              rw [hStrm]
              exact hTwin _ (hDict.trans hKept.dict)
                (hWsp.trans hKept.wspPage)
                ((flgSkipLastDict_deflateFlush
                  flush s₂).trans hFlag)

/- A call of `zedc_deflate` on both streams. -/
theorem zedcDeflate_twins
    {t : DeflStream}
    (hEnv : SameAnswers known env)
    (hTwin : TwinOf known s t) :
    (zedcDeflate flush env t).rc =
        (zedcDeflate flush env s).rc ∧
      TwinOf known (zedcDeflate flush env s).strm
        (zedcDeflate flush env t).strm := by
  rcases hTwin with ⟨pages, rfl, hFit⟩
  have hKept := deflatePrepare_dictKept flush env.now s
  have hSkip := flgSkipLastDict_deflatePrepare flush env.now s
  unfold zedcDeflate
  rw [deflatePrepare_overlay]
  cases hPrepare : deflatePrepare flush env.now s with
  | inl result =>
      rw [hPrepare] at hKept hSkip
      exact ⟨rfl, pages, by rw [← hSkip]; rfl,
        hFit.kept hKept hSkip⟩
  | inr s₁ =>
      rw [hPrepare] at hKept hSkip
      have hFit₁ := hFit.kept hKept hSkip
      change s₁.flgSkipLastDict = s.flgSkipLastDict at hSkip
      rw [← hSkip]
      exact deflateSubmit_twins hEnv hFit₁

end Twin

------------------------------------------------------------
-- Between Calls
------------------------------------------------------------

/- The stream without the buffers of its last call. -/
def idle (s : DeflStream) : DeflStream :=
  { s with nextIn := [], availOut := 0 }

/- Two streams between calls. -/
def Twins (known : Prop) (h k : DeflStream) : Prop :=
  TwinOf known (idle h) (idle k)

section Twins

variable {known : Prop} {h k : DeflStream}

theorem TwinOf.idle (hTwin : TwinOf known h k) :
    Twins known h k := by
  rcases hTwin with ⟨pages, rfl, hFit⟩
  exact ⟨pages, rfl, hFit.dict, hFit.window⟩

/- They are offered the same buffers. -/
theorem Twins.offer
    (hTwins : Twins known h k) (c : DeflateCall) :
    TwinOf known (offerDeflate c h) (offerDeflate c k) := by
  rcases hTwins with ⟨pages, hEq, hFit⟩
  exact ⟨pages, congrArg (offerDeflate c) hEq,
    hFit.dict, hFit.window⟩

theorem Twins.books (hTwins : Twins known h k) :
    SameBooks h k := by
  rcases hTwins with ⟨pages, hEq, _⟩
  exact ⟨(congrArg DeflStream.format hEq :),
    (congrArg DeflStream.crc32 hEq :),
    (congrArg DeflStream.adler32 hEq :),
    (congrArg DeflStream.totalIn hEq :),
    (congrArg DeflStream.totalOut hEq :)⟩

theorem Twins.counts
    (hTwins : Twins known h k) (totalIn totalOut : Nat) :
    Twins known
      { h with totalIn := totalIn, totalOut := totalOut }
      { k with totalIn := totalIn, totalOut := totalOut } := by
  rcases hTwins with ⟨pages, hEq, hFit⟩
  refine ⟨pages, ?_, hFit.dict, hFit.window⟩
  exact congrArg
    (fun s =>
      { s with totalIn := totalIn, totalOut := totalOut })
    hEq

/- Such streams cannot be told apart by `h_deflate`. -/
theorem twins_tandem (known : Prop) :
    Tandem (SameAnswers known) (Twins known) := by
  refine ⟨fun _ _ hTwins => hTwins.books,
    fun _ _ totalIn totalOut hTwins =>
      hTwins.counts totalIn totalOut, ?_⟩
  intro c h k hEnv hTwins
  have hOut : k.nextOut = h.nextOut := by
    rcases hTwins with ⟨pages, hEq, _⟩
    exact (congrArg DeflStream.nextOut hEq :)
  rcases @zedcDeflate_twins known _ c.flush c.env _ hEnv
    (hTwins.offer c) with ⟨hRc, hTwin⟩
  change (c.ret k).rc = (c.ret h).rc at hRc
  change TwinOf known (c.ret h).strm (c.ret k).strm at hTwin
  have hNext := hTwin.idle
  rcases hTwin with ⟨pages, hEq, _⟩
  refine ⟨hRc, by rw [hEq]; rfl, by rw [hEq]; rfl, ?_, hNext⟩
  unfold newOutput
  rw [hEq, hOut]
  rfl

/- A dictionary is copied to the same place of both. -/
theorem DictTwins.setFirstPage
    {pages : Bool → ByteMem}
    {s : DeflStream}
    (hTwins : DictTwins pages s)
    (dictionary : List UInt8)
    (adler : UInt32)
    (hShort : dictionary.length ≤ zedcDictLen) :
    DictTwins (Session.setFirstPage dictionary pages)
      { s with
        dict := Session.setFirstPage dictionary s.dict
        dictLen := UInt16.ofNat dictionary.length
        dictAdler32 := adler
        havedict := true } := by
  rcases hTwins with hPage | ⟨hFirst, hOffs, _⟩
  · left
    intro i hLt
    simp only [setFirstPage_apply]
    split
    · rfl
    · exact hPage i hLt
  · right
    refine ⟨hFirst, hOffs, fun i hLt => ?_⟩
    have hLen :
        (UInt16.ofNat dictionary.length).toNat =
          dictionary.length := by
      rw [UInt16.toNat_ofNat']
      unfold zedcDictLen at hShort
      omega
    change i < (UInt16.ofNat dictionary.length).toNat at hLt
    rw [hLen] at hLt
    simp only [setFirstPage_apply, hLt, and_self, if_true]

/- Setting the streams up keeps them together. -/
theorem twins_setUp : SetUpTogether (Twins False) := by
  constructor
  · rintro h k dictionary ⟨pages, hEq, hFit⟩
    have hAdded : k.headerAdded = h.headerAdded :=
      (congrArg DeflStream.headerAdded hEq :)
    have hAdler : k.dictAdler32 = h.dictAdler32 :=
      (congrArg DeflStream.dictAdler32 hEq :)
    have hRefused : Twins False h k :=
      ⟨pages, hEq, hFit.dict, hFit.window⟩
    unfold deflateSetDictionary zedcDeflateSetDictionary
    by_cases hOpen : h.headerAdded = true
    · rw [if_pos hOpen, if_pos (hAdded.trans hOpen)]
      exact ⟨rfl, hAdler, hRefused⟩
    · rw [if_neg hOpen, if_neg (hAdded ▸ hOpen)]
      by_cases hLong : dictionary.length > zedcDictLen
      · rw [if_pos hLong, if_pos hLong]
        exact ⟨rfl, hAdler, hRefused⟩
      · rw [if_neg hLong, if_neg hLong]
        refine ⟨rfl, rfl, setFirstPage dictionary pages,
          ?_, fun hNoSkip => ?_, nofun⟩
        · exact congrArg
            (fun s =>
              { s with
                dict := setFirstPage dictionary s.dict
                dictLen := UInt16.ofNat dictionary.length
                dictAdler32 :=
                  UInt32.ofNat (adler32 1 dictionary)
                havedict := true })
            hEq
        · exact (hFit.dict hNoSkip).setFirstPage dictionary _
            (Nat.not_lt.mp hLong)
  · rintro h k head ⟨pages, hEq, hFit⟩
    exact ⟨pages, congrArg (zedcDeflateSetHeader head) hEq,
      hFit.dict, hFit.window⟩
  · rintro h k ⟨pages, hEq, hFit⟩
    refine ⟨pages, congrArg deflateInitState hEq, ?_, nofun⟩
    exact fun _ => Or.inr ⟨rfl, rfl, fun i hLt => nomatch hLt⟩

end Twins

------------------------------------------------------------
-- Runs
------------------------------------------------------------

/- The accelerator gives two streams the same responses. -/
def SameResponses (st : HDeflate) : HDeflateOp → Prop
  | .deflate call =>
      ∀ i, SameAnswers (DictInPage st.s.h) (call.env i)
  | _ => True

section Runs

variable {st tw : HDeflate}

/- Where the dictionary lies in its page it is the same. -/
theorem Twins.inPage
    {h k : DeflStream}
    (hTwins : Twins False h k) :
    Twins (DictInPage h) h k := by
  rcases hTwins with ⟨pages, hEq, hFit⟩
  refine ⟨pages, hEq, hFit.dict, fun hIn => ?_⟩
  exact ⟨hIn.1, (hFit.dict hIn.1).window hIn.2⟩

theorem Twins.forget
    {known : Prop}
    {h k : DeflStream}
    (hTwins : Twins known h k) :
    Twins False h k := by
  rcases hTwins with ⟨pages, hEq, hFit⟩
  exact ⟨pages, hEq, hFit.dict, nofun⟩

/- The two streams go on in step. -/
theorem hDeflateShow_lockstep :
    Lockstep hDeflateShow hDeflateShow SameResponses
      (Alongside (Twins False)) := by
  intro st tw op hAlong hOk
  cases op with
  | deflate call =>
      have hKnown :
          Alongside (Twins (DictInPage st.s.h)) st tw :=
        { hAlong with h := hAlong.h.inPage }
      have hBoth :=
        hKnown.deflate (twins_tandem (DictInPage st.s.h)) call
          hOk
      generalize hDeflateShow st (.deflate call) = a at *
      generalize hDeflateShow tw (.deflate call) = b at *
      cases hBoth with
      | none => exact .none
      | some hSame =>
          exact .some ⟨hSame.1,
            hSame.2.mono fun _ _ => Twins.forget⟩
  | setDictionary dictionary =>
      exact hAlong.op (twins_tandem False) twins_setUp _
        trivial
  | setHeader head =>
      exact hAlong.op (twins_tandem False) twins_setUp _
        trivial
  | reset =>
      exact hAlong.op (twins_tandem False) twins_setUp _
        trivial

end Runs

end Session
