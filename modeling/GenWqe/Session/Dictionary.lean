import GenWqe.Session.Inflate
import GenWqe.Session.Deflate

/-
  Where an accepted dictionary is copied to, and where the
  next DDCB looks for it.

  Key definitions include:
    * `LandsAt`
    * `InflateSees`, `DeflateSees`

  Main results:
    * `window_setFirstPage_iff`
    * `inflate_sees_iff`, `deflate_sees_iff`
    * `dictionary_seen_iff`
-/

------------------------------------------------------------
-- The Copy
------------------------------------------------------------

namespace Session

open Zedc Hardware

/- `memcpy(&strm->wsp->dict[0], dictionary, dictLength)` -/
def setFirstPage
    (dictionary : List UInt8) (pages : Bool → ByteMem) :
    Bool → ByteMem := fun p =>
  if p then pages p else (pages p).store 0 dictionary

/-
  The dictionary comes to lie where `in_dict` points: page 0
  is in use with no offset, or the bytes there are the same by
  chance, in front of the copy or behind a shifted one.
-/
def LandsAt
    (pages : Bool → ByteMem)
    (page : Bool)
    (offs : Nat)
    (dictionary : List UInt8) : Prop :=
  page = false ∧ offs = 0 ∨
    ∀ i < dictionary.length,
      (if page = false ∧ offs + i < dictionary.length then
        dictionary.getD (offs + i) 0
      else pages page (offs + i)) = dictionary.getD i 0

theorem window_eq_iff
    {m : ByteMem}
    {offs : Nat}
    {bs : List UInt8} :
    m.window offs bs.length = bs ↔
      ∀ i < bs.length, m (offs + i) = bs.getD i 0 := by
  constructor
  · intro hSame i hLt
    have hAt := ByteMem.window_getElem? m offs bs.length i
    rw [hSame, if_pos hLt] at hAt
    rw [List.getD_eq_getElem?_getD, hAt]
    rfl
  · intro hAll
    apply List.ext_getElem?
    intro i
    rw [ByteMem.window_getElem?]
    by_cases hLt : i < bs.length
    · rw [if_pos hLt, hAll i hLt,
        List.getD_eq_getElem?_getD,
        List.getElem?_eq_getElem hLt]
      rfl
    · rw [if_neg hLt,
        List.getElem?_eq_none (Nat.not_lt.mp hLt)]

/- The page in use, once the dictionary was copied. -/
theorem setFirstPage_apply
    (dictionary : List UInt8)
    (pages : Bool → ByteMem)
    (page : Bool)
    (i : Nat) :
    setFirstPage dictionary pages page i =
      if page = false ∧ i < dictionary.length then
        dictionary.getD i 0
      else pages page i := by
  unfold setFirstPage
  cases page with
  | true => simp
  | false => simp [ByteMem.store]

theorem window_setFirstPage_iff
    {dictionary : List UInt8}
    {pages : Bool → ByteMem}
    {page : Bool}
    {offs : Nat} :
    (setFirstPage dictionary pages page).window offs
          dictionary.length = dictionary ↔
      LandsAt pages page offs dictionary := by
  rw [window_eq_iff]
  simp only [setFirstPage_apply]
  unfold LandsAt
  constructor
  · exact Or.inr
  · rintro (⟨hPage, rfl⟩ | hAll)
    · intro i hLt
      rw [Nat.zero_add, if_pos ⟨hPage, hLt⟩]
    · exact hAll

------------------------------------------------------------
-- Inflate
------------------------------------------------------------

/- A call that submits no DDCB and sets no dictionary. -/
def InflateOp.Quiet (s : InflStream) : InflateOp → Prop
  | .inflate args =>
      inflateSubmits args.flush (args.offer s) = false
  | .getHeader _ => True
  | .readPending _ => True
  | .setDictionary _ => False
  | .reset _ => False

def inflateQuietStep
    (s : InflStream)
    (l : InflateLabel)
    (s' : InflStream) : Prop :=
  inflateOpStep s l s' ∧ l.op.Quiet s

/-
  The next DDCB is given the dictionary, however many calls
  without one come first; and so is the caller who asks.
-/
structure InflateSees
    (dictionary : List UInt8) (s : InflStream) : Prop where
  getDictionary :
    zedcInflateGetDictionary s =
      (dictionary, dictionary.length)
  request :
    ∀ trace s₁ (args : InflateArgs) s₂,
      Run inflateQuietStep s trace s₁ →
        inflatePrepare args.flush (args.offer s₁) =
            some (.inr s₂) →
          (inflateRequest s₂).inDict.window 0
              (inflateRequest s₂).inDictLen = dictionary

theorem inflateQuiet_dictKept
    {s s' : InflStream}
    {l : InflateLabel}
    (hStep : inflateQuietStep s l s') :
    InflDictKept s s' := by
  rcases l with ⟨before, op, rc⟩
  rcases hStep with ⟨⟨_, hOp⟩, hQuiet⟩
  cases op with
  | inflate args =>
      rcases Option.map_eq_some_iff.mp hOp with
        ⟨ret, hCall, hRet⟩
      have hStrm : ret.strm = s' := congrArg Prod.snd hRet
      rw [← hStrm]
      have hNoDdcb :
          inflateSubmits args.flush (args.offer s) =
            false := hQuiet
      unfold zedcInflate at hCall
      unfold inflateSubmits at hNoDdcb
      cases hPrepare :
          inflatePrepare args.flush (args.offer s) with
      | none =>
          rw [hPrepare] at hCall
          cases hCall
      | some result =>
          have hKept := inflatePrepare_dictKept hPrepare
          rw [hPrepare] at hCall hNoDdcb
          cases result with
          | inl result =>
              cases hCall
              exact ⟨hKept.dict, hKept.wspPage,
                hKept.dictLen, hKept.outDictOffs⟩
          | inr s₁ => cases hNoDdcb
  | setDictionary dictionary => exact hQuiet.elim
  | getHeader head =>
      cases hOp
      exact ⟨rfl, rfl, rfl, rfl⟩
  | readPending len =>
      simp only [InflateOp.run] at hOp
      cases hRead : zedcReadPendingOutput len s with
      | none =>
          rw [hRead] at hOp
          cases hOp
          exact .refl s
      | some result =>
          rw [hRead] at hOp
          cases hOp
          unfold zedcReadPendingOutput at hRead
          split at hRead
          · cases hRead
            exact .refl s
          · split at hRead
            · cases hRead
            · cases hRead
              exact ⟨rfl, rfl, rfl, rfl⟩
  | reset windowBits => exact hQuiet.elim

/- What an accepted dictionary leaves of the stream. -/
theorem inflateSetDictionary_ok
    {dictionary : List UInt8}
    {s : InflStream}
    (hOk : (zedcInflateSetDictionary dictionary s).1 = .ok) :
    (zedcInflateSetDictionary dictionary s).2.dict =
      { s.dict with
        dict := setFirstPage dictionary s.dict.dict
        dictLen := dictionary.length } := by
  unfold zedcInflateSetDictionary at hOk ⊢
  split at hOk
  · cases hOk
  · split at hOk
    · cases hOk
    · rename_i hShort hMatch
      rw [if_neg hShort, if_neg hMatch]
      simp only
      congr 1
      funext page
      cases page <;> rfl

theorem inflate_sees_iff
    {dictionary : List UInt8}
    {s : InflStream}
    (hOk : (zedcInflateSetDictionary dictionary s).1 = .ok) :
    InflateSees dictionary
        (zedcInflateSetDictionary dictionary s).2 ↔
      LandsAt s.dict.dict s.dict.wspPage s.dict.outDictOffs
        dictionary := by
  have hDict := inflateSetDictionary_ok hOk
  generalize
    (zedcInflateSetDictionary dictionary s).2 = s' at *
  have hWindow :
      (s'.dict.dict s'.dict.wspPage).window
            s'.dict.outDictOffs s'.dict.dictLen =
          dictionary ↔
        LandsAt s.dict.dict s.dict.wspPage
          s.dict.outDictOffs dictionary := by
    rw [hDict]
    exact window_setFirstPage_iff
  have hLen : s'.dict.dictLen = dictionary.length := by
    rw [hDict]
  constructor
  · intro hSees
    exact hWindow.mp (congrArg Prod.fst hSees.getDictionary)
  · intro hLands
    have hSame := hWindow.mpr hLands
    refine ⟨Prod.ext hSame hLen, ?_⟩
    intro trace s₁ args s₂ hRun hPrepare
    have hKept₁ : InflDictKept s' s₁ :=
      Run.preserves (InflDictKept s') (.refl s')
        (fun _ _ _ hPast hStep =>
          hPast.trans (inflateQuiet_dictKept hStep)) hRun
    have hOffer : InflDictKept s₁ (args.offer s₁) :=
      ⟨rfl, rfl, rfl, rfl⟩
    have hPrepared : InflDictKept (args.offer s₁) s₂ :=
      inflatePrepare_dictKept hPrepare
    have hKept :=
      hKept₁.trans (hOffer.trans hPrepared)
    have hMoved :
        (inflateRequest s₂).inDict.window 0
            (inflateRequest s₂).inDictLen =
          (s₂.dict.dict s₂.dict.wspPage).window
            s₂.dict.outDictOffs s₂.dict.dictLen := by
      simp [inflateRequest, ByteMem.window]
    rw [hMoved, hKept.dict, hKept.wspPage, hKept.dictLen,
      hKept.outDictOffs]
    exact hSame

------------------------------------------------------------
-- Deflate
------------------------------------------------------------

/- A call that submits no DDCB and sets no dictionary. -/
def DeflateOp.Quiet (s : DeflStream) : DeflateOp → Prop
  | .deflate call => deflateSubmits call s = false
  | .setHeader _ => True
  | .setDictionary _ => False
  | .reset => False

def deflateQuietStep
    (s : DeflStream)
    (l : DeflateOp × Rc)
    (s' : DeflStream) : Prop :=
  deflateOpStep s l s' ∧ l.1.Quiet s

/-
  The next DDCB is given the dictionary, however many calls
  without one come first.
-/
def DeflateSees
    (dictionary : List UInt8) (s : DeflStream) : Prop :=
  ∀ trace s₁ (call : DeflateCall) s₂,
    Run deflateQuietStep s trace s₁ →
      deflatePrepare call.flush call.env.now
          (offerDeflate call s₁) = .inr s₂ →
        (deflateRequest call.flush s₂).inDict.window 0
            (deflateRequest call.flush s₂).inDictLen.toNat =
          dictionary

theorem deflateQuiet_dictKept
    {s s' : DeflStream}
    {l : DeflateOp × Rc}
    (hStep : deflateQuietStep s l s') :
    DeflDictKept s s' := by
  rcases l with ⟨op, rc⟩
  rcases hStep with ⟨hOp, hQuiet⟩
  have hStrm : (op.run s).2 = s' := congrArg Prod.snd hOp
  rw [← hStrm]
  cases op with
  | deflate call =>
      have hKept :=
        deflatePrepare_dictKept call.flush call.env.now
          (offerDeflate call s)
      have hNoDdcb : deflateSubmits call s = false := hQuiet
      unfold deflateSubmits at hNoDdcb
      show DeflDictKept s
        (zedcDeflate call.flush call.env
          (offerDeflate call s)).strm
      unfold zedcDeflate
      cases hPrepare :
          deflatePrepare call.flush call.env.now
            (offerDeflate call s) with
      | inl result =>
          rw [hPrepare] at hKept
          exact ⟨hKept.dict, hKept.wspPage, hKept.dictLen,
            hKept.outDictOffs⟩
      | inr s₁ =>
          rw [hPrepare] at hNoDdcb
          cases hNoDdcb
  | setDictionary dictionary => exact hQuiet.elim
  | setHeader head => exact ⟨rfl, rfl, rfl, rfl⟩
  | reset => exact hQuiet.elim

/- A raw stream has no header to write. -/
theorem deflatePrepare_raw
    {flush : Flush}
    {now : UInt32}
    {s : DeflStream}
    (hRaw : s.format = .defl) :
    deflatePrepare flush now s =
      deflatePrepareDrained flush (deflateWriteOutFifo s) := by
  have hHeader :
      (if s.headerAdded then (false, s)
        else deflateAddHeader now s) = (false, s) := by
    split
    · rfl
    · unfold deflateAddHeader
      rw [hRaw]
  unfold deflatePrepare
  rw [hHeader]

/- The end of a raw stream was written. -/
structure RawEnded (s : DeflStream) : Prop where
  format : s.format = .defl
  ended : DeflEnded s

theorem RawEnded.quiet
    {s s' : DeflStream}
    {l : DeflateOp × Rc}
    (hEnded : RawEnded s)
    (hStep : deflateQuietStep s l s') : RawEnded s' := by
  rcases l with ⟨op, rc⟩
  rcases hStep with ⟨hOp, hQuiet⟩
  have hStrm : (op.run s).2 = s' := congrArg Prod.snd hOp
  rw [← hStrm]
  cases op with
  | deflate call =>
      have hOffer : DeflEnded (offerDeflate call s) :=
        ⟨hEnded.ended.eobAdded, hEnded.ended.trailerAdded⟩
      rcases hOffer.prepare call.flush call.env.now with
        ⟨rc', s₁, hPrepare, hEnd, hFormat⟩
      show RawEnded
        (zedcDeflate call.flush call.env
          (offerDeflate call s)).strm
      unfold zedcDeflate
      rw [hPrepare]
      exact ⟨hFormat.trans hEnded.format, hEnd⟩
  | setDictionary dictionary => exact hQuiet.elim
  | setHeader head =>
      exact ⟨hEnded.format, hEnded.ended.eobAdded,
        hEnded.ended.trailerAdded⟩
  | reset => exact hQuiet.elim

/- One byte of input, and more space than the FIFO takes. -/
def roomyCall : DeflateCall where
  nextIn := [0]
  availOut := zedcFifoSize
  flush := .noFlush
  env := ⟨fun _ req => echoResp req, 0⟩

/- Before its end a raw stream can always make a request. -/
theorem deflatePrepare_roomy
    {s : DeflStream}
    (hRaw : s.format = .defl)
    (hMore : ¬ RawEnded s) :
    ∃ s₁,
      deflatePrepare roomyCall.flush roomyCall.env.now
        (offerDeflate roomyCall s) = .inr s₁ := by
  have hDrained :=
    deflateWriteOutFifo_spec (offerDeflate roomyCall s)
  rcases hDrained.eq with ⟨out, f, hOut, hLe, hEq⟩
  have hHeld := s.outFifo.fifoUsed_lt
  rw [← ZedcFifo.length_contents] at hHeld
  have hShort : out.length < zedcFifoSize := by
    have hLen := congrArg List.length hOut
    have hSame :
        (offerDeflate roomyCall s).outFifo = s.outFifo := rfl
    rw [hSame, List.length_append] at hLen
    omega
  have hNotDone :
      deflateDone
        (deflateWriteOutFifo (offerDeflate roomyCall s)) =
          false := by
    rw [hEq]
    unfold deflateDone
    by_contra hDone
    rw [Bool.not_eq_false] at hDone
    simp only [Bool.and_eq_true] at hDone
    exact hMore ⟨hRaw, hDone.1.1, hDone.1.2⟩
  have hSpace :
      (deflateWriteOutFifo
        (offerDeflate roomyCall s)).availOut ≠ 0 := by
    rw [hEq]
    exact Nat.sub_ne_zero_of_lt hShort
  have hInput :
      (deflateWriteOutFifo
        (offerDeflate roomyCall s)).nextIn ≠ [] := by
    rw [hEq]
    exact List.cons_ne_nil _ _
  rw [deflatePrepare_raw (s := offerDeflate roomyCall s) hRaw]
  have hNotEnd :
      ¬ (roomyCall.flush = .finish ∧
        (deflateWriteOutFifo
          (offerDeflate roomyCall s)).nextIn = []) :=
    fun hBoth => hInput hBoth.2
  unfold deflatePrepareDrained
  rw [if_neg hSpace, if_neg hNotEnd]
  unfold deflateExits
  rw [hNotDone, if_neg Bool.false_ne_true, if_neg hSpace,
    if_neg hInput]
  exact ⟨_, rfl⟩

/- What an accepted dictionary leaves of the stream. -/
structure DictionarySet
    (dictionary : List UInt8) (s s' : DeflStream) :
    Prop where
  dict : s'.dict = setFirstPage dictionary s.dict
  wspPage : s'.wspPage = s.wspPage
  dictLen : s'.dictLen.toNat = dictionary.length
  outDictOffs : s'.outDictOffs = s.outDictOffs
  format : s'.format = s.format
  eobAdded : s'.eobAdded = s.eobAdded
  trailerAdded : s'.trailerAdded = s.trailerAdded

theorem deflateSetDictionary_ok
    {dictionary : List UInt8}
    {s : DeflStream}
    (hOk : (deflateSetDictionary dictionary s).1 = .ok) :
    s.headerAdded = false ∧
      DictionarySet dictionary s
        (deflateSetDictionary dictionary s).2 := by
  unfold deflateSetDictionary zedcDeflateSetDictionary
    at hOk ⊢
  split at hOk
  · cases hOk
  · split at hOk
    · cases hOk
    · rename_i hOpen hShort
      rw [if_neg hOpen, if_neg hShort]
      refine ⟨Bool.eq_false_iff.mpr hOpen, rfl, rfl, ?_, rfl,
        rfl, rfl, rfl⟩
      apply UInt16.toNat_ofNat_of_lt'
      unfold zedcDictLen at hShort
      have hSize : UInt16.size = 65536 := rfl
      omega

theorem deflate_sees_iff
    {dictionary : List UInt8}
    {s : DeflStream}
    (hUnstarted : Unstarted s)
    (hOk : (deflateSetDictionary dictionary s).1 = .ok) :
    DeflateSees dictionary
        (deflateSetDictionary dictionary s).2 ↔
      LandsAt s.dict s.wspPage s.outDictOffs.toNat
          dictionary ∨
        RawEnded s := by
  rcases deflateSetDictionary_ok hOk with ⟨hOpen, hSet⟩
  generalize
    (deflateSetDictionary dictionary s).2 = s' at *
  have hWindow :
      (s'.dict s'.wspPage).window s'.outDictOffs.toNat
            s'.dictLen.toNat = dictionary ↔
        LandsAt s.dict s.wspPage s.outDictOffs.toNat
          dictionary := by
    rw [hSet.dict, hSet.wspPage, hSet.dictLen,
      hSet.outDictOffs]
    exact window_setFirstPage_iff
  have hRequest :
      ∀ trace s₁ (call : DeflateCall) s₂,
        Run deflateQuietStep s' trace s₁ →
          deflatePrepare call.flush call.env.now
              (offerDeflate call s₁) = .inr s₂ →
            (deflateRequest call.flush s₂).inDict.window 0
                (deflateRequest call.flush
                  s₂).inDictLen.toNat =
              (s'.dict s'.wspPage).window
                s'.outDictOffs.toNat s'.dictLen.toNat := by
    intro trace s₁ call s₂ hRun hPrepare
    have hKept₁ : DeflDictKept s' s₁ :=
      Run.preserves (DeflDictKept s') (.refl s')
        (fun _ _ _ hPast hStep =>
          hPast.trans (deflateQuiet_dictKept hStep)) hRun
    have hOffer : DeflDictKept s₁ (offerDeflate call s₁) :=
      ⟨rfl, rfl, rfl, rfl⟩
    have hPrepared :=
      deflatePrepare_dictKept call.flush call.env.now
        (offerDeflate call s₁)
    rw [hPrepare] at hPrepared
    have hKept : DeflDictKept s' s₂ :=
      hKept₁.trans (hOffer.trans hPrepared)
    rw [← hKept.dict, ← hKept.wspPage, ← hKept.dictLen,
      ← hKept.outDictOffs]
    simp [deflateRequest, ByteMem.window]
  constructor
  · intro hSees
    by_cases hEnded : RawEnded s
    · exact Or.inr hEnded
    left
    by_cases hRaw : s.format = .defl
    · have hMore : ¬ RawEnded s' := fun hEnd =>
        hEnded ⟨hRaw, hSet.eobAdded ▸ hEnd.ended.eobAdded,
          hSet.trailerAdded ▸ hEnd.ended.trailerAdded⟩
      rcases deflatePrepare_roomy (hSet.format.trans hRaw)
        hMore with ⟨s₁, hPrepare⟩
      exact hWindow.mp
        ((hRequest [] s' roomyCall s₁ Run.start
          hPrepare).symm.trans
            (hSees [] s' roomyCall s₁ Run.start hPrepare))
    · rcases hUnstarted ⟨hRaw, hOpen⟩ with ⟨hPage, hOffs⟩
      refine Or.inl ⟨hPage, ?_⟩
      rw [hOffs]
      rfl
  · rintro (hLands | hEnded)
    · intro trace s₁ call s₂ hRun hPrepare
      exact (hRequest trace s₁ call s₂ hRun hPrepare).trans
        (hWindow.mpr hLands)
    · intro trace s₁ call s₂ hRun hPrepare
      have hEnd' : RawEnded s' :=
        ⟨hSet.format.trans hEnded.format,
          hSet.eobAdded.trans hEnded.ended.eobAdded,
          hSet.trailerAdded.trans hEnded.ended.trailerAdded⟩
      have hEnd₁ : RawEnded s₁ :=
        Run.preserves RawEnded hEnd'
          (fun _ _ _ hEnd hStep => hEnd.quiet hStep) hRun
      have hOffer : DeflEnded (offerDeflate call s₁) :=
        ⟨hEnd₁.ended.eobAdded, hEnd₁.ended.trailerAdded⟩
      rcases hOffer.prepare call.flush call.env.now with
        ⟨rc, s₃, hLeft, _⟩
      cases hPrepare.symm.trans hLeft

------------------------------------------------------------
-- Both
------------------------------------------------------------

/-
  An accepted dictionary is the one the next DDCB is given,
  and the one handed back, just where it lands at `in_dict`;
  behind the end of a raw deflate stream no DDCB follows.
-/
theorem dictionary_seen_iff
    (dictionary : List UInt8) :
    (∀ {cfg format trace s},
      InflateRun cfg format trace s →
        (zedcInflateSetDictionary dictionary s).1 = .ok →
          (InflateSees dictionary
              (zedcInflateSetDictionary dictionary s).2 ↔
            LandsAt s.dict.dict s.dict.wspPage
              s.dict.outDictOffs dictionary)) ∧
    ∀ {cfg format trace s},
      DeflateRun cfg format trace s →
        (deflateSetDictionary dictionary s).1 = .ok →
          (DeflateSees dictionary
              (deflateSetDictionary dictionary s).2 ↔
            LandsAt s.dict s.wspPage s.outDictOffs.toNat
                dictionary ∨
              RawEnded s) := by
  constructor
  · intro cfg format trace s _ hOk
    exact inflate_sees_iff hOk
  · intro cfg format trace s hRun hOk
    exact deflate_sees_iff (unstarted_run hRun) hOk

/- No options, and a card that stores what it is given. -/
def plainDeflate : DeflateConfig :=
  ⟨false, false, false, false⟩

def rawDeflate : DeflStream :=
  zedcDeflateInit2 plainDeflate .defl

/- A raw stream behind its first DDCB. -/
def rawBehind : Rc × DeflStream :=
  (DeflateOp.deflate roomyCall).run rawDeflate

theorem run_rawBehind :
    DeflateRun plainDeflate .defl
      [(.deflate roomyCall, rawBehind.1)] rawBehind.2 :=
  Run.next Run.start rfl

/- Accepted there, and not given to the next DDCB. -/
theorem dictionary_unseen :
    DeflateRun plainDeflate .defl
        [(.deflate roomyCall, rawBehind.1)] rawBehind.2 ∧
      (deflateSetDictionary [0x61] rawBehind.2).1 = .ok ∧
      ¬ DeflateSees [0x61]
        (deflateSetDictionary [0x61] rawBehind.2).2 := by
  have hOk :
      (deflateSetDictionary [0x61] rawBehind.2).1 = .ok := by
    decide
  refine ⟨run_rawBehind, hOk, fun hSees => ?_⟩
  rcases (deflate_sees_iff (unstarted_run run_rawBehind)
      hOk).mp hSees with (⟨hPage, _⟩ | hSame) | hEnded
  · exact absurd hPage (by decide)
  · exact absurd (hSame 0 Nat.zero_lt_one) (by decide)
  · exact absurd hEnded.ended.eobAdded (by decide)

/- Right after the set-up all is well, on both sides. -/
theorem dictionary_seen_setUp :
    InflateSees [0x61]
        (zedcInflateSetDictionary [0x61]
          (zedcInflateInit2 plainConfig .defl)).2 ∧
      DeflateSees [0x61]
        (deflateSetDictionary [0x61] rawDeflate).2 := by
  have hInflate :
      (zedcInflateSetDictionary [0x61]
        (zedcInflateInit2 plainConfig .defl)).1 = .ok := by
    decide
  have hDeflate :
      (deflateSetDictionary [0x61] rawDeflate).1 = .ok := by
    decide
  exact ⟨((dictionary_seen_iff [0x61]).1 Run.start
      hInflate).mpr (Or.inl ⟨rfl, rfl⟩),
    ((dictionary_seen_iff [0x61]).2 Run.start
      hDeflate).mpr (Or.inl (Or.inl ⟨rfl, rfl⟩))⟩

end Session
