import GenWqe.Wrapper.Format

/-
  The dictionary and the header behind an exchange of the
  implementation, next to those the old one had.

  Key definitions include:
    * `DictView`, `Remembers`
    * `Sub.dictionary`, `Sub.head`, `readBack`
    * `Survives`, `Carries`

  Main results:
    * `switchHeader_fresh`, `switchDictionary_fresh`
    * `holding_survives_iff`
-/

------------------------------------------------------------
-- The Software
------------------------------------------------------------

namespace Wrapper

open Zedc Hardware Session

section Survival

variable {σ : Type}

/-
  What can be seen of a state of the software zlib, with the
  dictionary in its window. A state is fresh until it is given
  a dictionary or data.
-/
structure DictView (σ : Type) extends SoftView σ where
  dictionary : σ → List UInt8
  fresh : σ → Prop

/- The window that window bits ask for. -/
def softWindow (windowBits : Int) : Nat :=
  2 ^ (windowBits.natAbs % 16)

/-
  What the functions of the software do to a fresh state. It
  takes a dictionary for a raw stream only, and of that what
  fits into its window; a header for each stream that may be a
  GZIP one.
-/
structure Remembers
    (view : DictView σ) (soft : Software σ) : Prop where
  init :
    ∀ {windowBits z strm s},
      soft.inflateInit2 windowBits z = (.ok, strm, s) →
        view.fresh s ∧ view.dictionary s = []
  getHeader :
    ∀ {head z s rc strm s'},
      soft.inflateGetHeader head z s = (rc, strm, s') →
      view.fresh s →
        view.fresh s' ∧
          view.dictionary s' = view.dictionary s ∧
          (16 ≤ view.windowBits s → rc = .ok)
  refuse :
    ∀ {dictionary z s rc strm s'},
      soft.inflateSetDictionary dictionary z s =
        (rc, strm, s') →
      view.fresh s →
      rc = .ok → view.windowBits s < 0
  setDictionary :
    ∀ {dictionary z s rc strm s'},
      soft.inflateSetDictionary dictionary z s =
        (rc, strm, s') →
      view.fresh s →
      view.windowBits s < 0 →
      rc ≠ .memError →
        rc = .ok ∧
          view.dictionary s' =
            dictionary.drop
              (dictionary.length -
                softWindow (view.windowBits s))
  getDictionary :
    ∀ z s,
      soft.inflateGetDictionary z s =
        (.ok, view.dictionary s)

------------------------------------------------------------
-- What a State Holds
------------------------------------------------------------

/- The dictionary that a state works with. -/
def Sub.dictionary
    (view : DictView σ) : Sub InflateHw σ → List UInt8
  | .hw s => (zedcInflateGetDictionary s.h).1
  | .sw s => view.dictionary s

/- The header structure that a state fills. -/
def Sub.head
    (view : DictView σ) :
    Sub InflateHw σ → Option GzedcHeader
  | .hw s => s.h.prefx.gzipHead
  | .sw s => view.head s

/- The dictionary that the switch reads. -/
def readBack
    (lib : InflateLib)
    (view : DictView σ)
    (x : InflateWrap σ) : Sub InflateHw σ → List UInt8
  | .hw s => (zedcInflateGetDictionary s.h).1
  | .sw s =>
      if lib.hasGetDictionary then view.dictionary s
      else
        x.w.more.dictionary.window 0 x.w.more.dictLength

/-
  The new state holds the dictionary and the header that the
  old one held.
-/
def Survives
    (lib : InflateLib)
    (world : InflateWorld σ)
    (view : DictView σ)
    (old : Sub InflateHw σ)
    (x : InflateWrap σ) : Prop :=
  ∃ y new,
    inflateEntered lib world x = some (.go y) ∧
      y.w.privData = .live new ∧ new.impl = y.w.impl ∧
      new.dictionary view = old.dictionary view ∧
      new.head view = old.head view

/- The implementation to which an exchange comes in the end. -/
def landing
    (world : InflateWorld σ)
    (impl : Impl)
    (windowBits : Int) : Impl :=
  match impl with
  | .sw => .sw
  | .hw =>
    if world.hwInit.isNone ∧ (formatInit windowBits).isSome
    then .hw
    else .sw

/- A fresh state of an implementation takes the dictionary. -/
def accepts
    (impl : Impl)
    (windowBits : Int)
    (dictionary : List UInt8) : Prop :=
  match impl with
  | .hw =>
      formatInit windowBits = some .zlib →
        adler32 1 dictionary = 0
  | .sw => windowBits < 0

/- What it keeps of a dictionary, -/
def installed
    (impl : Impl)
    (windowBits : Int)
    (dictionary : List UInt8) : List UInt8 :=
  match impl with
  | .hw => dictionary
  | .sw =>
      dictionary.drop
        (dictionary.length - softWindow windowBits)

/- and of a header. -/
def installedHead
    (impl : Impl)
    (windowBits : Int)
    (head : Option GzedcHeader) : Option GzedcHeader :=
  let start (head : GzedcHeader) : GzedcHeader :=
    { head with done := false }
  match impl with
  | .hw => head.map start
  | .sw => if 16 ≤ windowBits then head.map start else none

/-
  The dictionary that is read back fits into the buffer on the
  stack, the new implementation takes it, and what it keeps of
  it is what the old one held. The same of the header that the
  wrapper knows.
-/
structure Carries
    (lib : InflateLib)
    (view : DictView σ)
    (impl : Impl)
    (x : InflateWrap σ)
    (old : Sub InflateHw σ) : Prop where
  fits : (readBack lib view x old).length ≤ zlibMaxDictLen
  accepted :
    readBack lib view x old = [] ∨
      accepts impl x.w.more.windowBits
        (readBack lib view x old)
  dictionary :
    installed impl x.w.more.windowBits
        (readBack lib view x old) =
      old.dictionary view
  head :
    installedHead impl x.w.more.windowBits
        x.w.more.gzhead =
      old.head view

------------------------------------------------------------
-- A Fresh State
------------------------------------------------------------

/- A new state, to which only a header was given. -/
def FreshSub
    (view : DictView σ)
    (windowBits : Int)
    (head : Option GzedcHeader) : Sub InflateHw σ → Prop
  | .hw s =>
      formatInit windowBits = some s.h.format ∧
        s.h.dictAdler32 = 0 ∧ s.h.dict.wspPage = false ∧
        s.h.dict.outDictOffs = 0 ∧ s.h.dict.dictLen = 0 ∧
        s.h.prefx.gzipHead = head
  | .sw s =>
      view.fresh s ∧ view.windowBits s = windowBits ∧
        view.dictionary s = [] ∧ view.head s = head

/- The stream has a fresh state below. -/
def FreshBelow
    (view : DictView σ)
    (head : Option GzedcHeader)
    (impl : Impl)
    (x : InflateWrap σ) : Prop :=
  Held x ∧ x.w.impl = impl ∧
    ∃ new,
      x.w.privData = .live new ∧ new.impl = impl ∧
        FreshSub view x.w.more.windowBits head new

section Switch

variable {lib : InflateLib} {world : InflateWorld σ}
variable {view : DictView σ} {impl : Impl}
variable {head : Option GzedcHeader}
variable {x x' : InflateWrap σ} {rc : Rc}

theorem Initialised.fresh
    (hNew : Initialised lib world x x')
    (hSoft : Documented view.toSoftView world.soft)
    (hDict : Remembers view world.soft) :
    ∃ new,
      x'.w.privData = .live new ∧
        FreshSub view x.w.more.windowBits none new := by
  cases hNew with
  | @hw st hImpl _ hInit =>
      refine ⟨.hw st.s, rfl, ?_⟩
      unfold hInflateInit2 at hInit
      cases hFormat : formatInit x.w.more.windowBits with
      | none =>
          rw [hFormat] at hInit
          cases hInit
      | some format =>
          rw [hFormat] at hInit
          cases hInit
          exact ⟨hFormat, rfl, rfl, rfl, rfl, rfl⟩
  | @sw z strm s allow hInit =>
      have hDone := hSoft.init hInit
      have hFresh := hDict.init hInit
      exact ⟨.sw s, rfl, hFresh.1, hDone.1, hFresh.2,
        hDone.2⟩

/- When a try with the hardware goes well. -/
theorem inflateInitTry_hw
    (hHw : x.w.impl = .hw) :
    (inflateInitTry lib world x).1 = .ok ↔
      world.hwInit.isNone ∧
        (formatInit x.w.more.windowBits).isSome := by
  unfold inflateInitTry hInflateInit2_ hInflateInit2
  rw [hHw]
  cases world.hwInit with
  | some bad => exact ⟨fun hOk => absurd hOk bad.2, nofun⟩
  | none =>
      simp only
      cases formatInit x.w.more.windowBits with
      | none => exact ⟨nofun, nofun⟩
      | some format => exact ⟨fun _ => ⟨rfl, rfl⟩, fun _ => rfl⟩

/- A try does not change the implementation. -/
theorem inflateInitTry_impl
    (lib : InflateLib)
    (world : InflateWorld σ)
    (x : InflateWrap σ) :
    (inflateInitTry lib world x).2.w.impl = x.w.impl := by
  unfold inflateInitTry
  split
  · split <;> rfl
  · simp only
    split <;> rfl

/- Which implementation the new state belongs to. -/
theorem inflateInitSub_landing
    (hInit : inflateInitSub lib world x = (.ok, x')) :
    x'.w.impl =
      landing world x.w.impl x.w.more.windowBits := by
  have hFirst := inflateInitTry_impl lib world x
  have hHw := @inflateInitTry_hw σ lib world x
  unfold inflateInitSub at hInit
  generalize inflateInitTry lib world x = first
    at hInit hFirst hHw
  rcases first with ⟨rc, y⟩
  simp only at hInit hFirst hHw
  unfold landing
  by_cases hOk : rc = .ok
  · rw [if_pos hOk] at hInit
    cases hInit
    cases hImpl : x.w.impl with
    | sw => exact hFirst.trans hImpl
    | hw =>
        simp only
        rw [if_pos ((hHw hImpl).mp hOk)]
        exact hFirst.trans hImpl
  · rw [if_neg hOk] at hInit
    generalize hSecond :
      inflateInitTry lib world _ = second at hInit
    have hSw : second.2.w.impl = .sw := by
      rw [← hSecond]
      exact inflateInitTry_impl lib world _
    rcases second with ⟨rc₂, x₂⟩
    simp only at hInit hSw
    split at hInit
    swap
    · rename_i hBad
      cases hInit
      exact absurd rfl hBad
    cases hInit
    cases hImpl : x.w.impl with
    | sw => exact hSw
    | hw =>
        simp only
        rw [if_neg fun hBoth => hOk ((hHw hImpl).mpr hBoth)]
        exact hSw

/- A call below returns where the hardware function does. -/
theorem callSub_some
    {π η : Type}
    {x : Wrap π η σ}
    {onHw : ZStream → η → Option (Rc × ZStream × η)}
    (onSw : ZStream → σ → Rc × ZStream × σ)
    (hOwns : x.w.Owns)
    (hTotal : ∀ z s, ∃ ret, onHw z s = some ret) :
    ∃ rc x', callSub onHw onSw x = some (rc, x') := by
  rcases hOwns with ⟨sub, hPriv, hImpl⟩
  unfold callSub
  rw [hPriv, ← hImpl]
  cases sub with
  | hw s =>
      rcases hTotal x.strm s with ⟨ret, hRet⟩
      exact ⟨_, _, by simp only [Sub.impl, hRet]; rfl⟩
  | sw s => exact ⟨_, _, rfl⟩

/- A fresh state is given the header, or refuses it. -/
theorem switchHeader_fresh
    (hSoft : Documented view.toSoftView world.soft)
    (hDict : Remembers view world.soft)
    (hBelow : FreshBelow view none impl x) :
    ∃ x',
      switchHeader world x = some x' ∧
        x'.w.more.windowBits = x.w.more.windowBits ∧
        FreshBelow view
          (installedHead impl x.w.more.windowBits
            x.w.more.gzhead) impl x' := by
  unfold switchHeader
  cases hHead : x.w.more.gzhead with
  | none =>
      have hNone :
          installedHead impl x.w.more.windowBits none =
            none := by
        unfold installedHead
        cases impl with
        | hw => rfl
        | sw => exact ite_self none
      refine ⟨x, rfl, rfl, ?_⟩
      rw [hNone]
      exact hBelow
  | some head =>
      rcases hBelow with ⟨hHeld, hImpl, new, hPriv, hNew,
        hFresh⟩
      have hKeep :
          (x.keep
            { x.w.more with gzhead := some head }).w.Owns :=
        hHeld.owns
      rcases callSub_some
          (world.soft.inflateGetHeader head) hKeep
          (fun z s =>
            ⟨_, show
              onHardware
                  (fun st => some (hInflateGetHeader head st))
                  z s = some _ from rfl⟩) with
        ⟨rc, x', hCall⟩
      have hGet :
          inflateGetHeader world head x = some (rc, x') := by
        unfold inflateGetHeader
        rw [hHeld.guarded]
        exact hCall
      have hHeld' := inflateGetHeader_held hHeld hGet
      refine ⟨x', ?_, ?_⟩
      · simp only [hGet, Option.map_some]
      cases callSub_called hKeep hCall with
      | @hw s s' _ strm hHw hLive hSome =>
          cases hPriv.symm.trans hLive
          have hHere : impl = .hw := hNew.symm
          subst hHere
          rcases onHardware_some hSome with ⟨_, rfl⟩
          rcases hFresh with
            ⟨hFormat, hAdler, hPage, hOffs, hLen, _⟩
          exact ⟨rfl, hHeld', hHw, _, rfl, rfl, hFormat,
            hAdler, hPage, hOffs, hLen, rfl⟩
      | @sw s s' _ strm hSw hLive hEq =>
          cases hPriv.symm.trans hLive
          have hHere : impl = .sw := hNew.symm
          subst hHere
          rcases hFresh with ⟨hStart, hBits, hNone, hOld⟩
          have hHeader := hSoft.getHeader hEq
          have hKept := hDict.getHeader hEq hStart
          refine ⟨rfl, hHeld', hSw, _, rfl, rfl, hKept.1,
            hHeader.1.trans hBits, hKept.2.1.trans hNone,
            ?_⟩
          unfold installedHead
          simp only
          split
          · rename_i hLarge
            have hOk : rc = .ok :=
              hKept.2.2 (hBits ▸ hLarge)
            exact (hHeader.2.1 hOk).2
          · rename_i hSmall
            have hBad : rc ≠ .ok := by
              intro hOk
              have hLarge := (hHeader.2.1 hOk).1
              rw [hBits] at hLarge
              exact hSmall hLarge
            exact (hHeader.2.2 hBad).trans hOld

/- What a fresh state does with a dictionary. -/
theorem inflateSetDictionary_fresh
    (lib : InflateLib)
    {dictionary : List UInt8}
    (hSoft : Documented view.toSoftView world.soft)
    (hDict : Remembers view world.soft)
    (hMemory :
      ∀ dictionary z s,
        (world.soft.inflateSetDictionary dictionary z s).1 ≠
          .memError)
    (hBelow : FreshBelow view head impl x)
    (hSmall : dictionary.length ≤ zlibMaxDictLen) :
    ∃ rc x',
      inflateSetDictionary lib world dictionary x =
          some (rc, x') ∧
        Held x' ∧
        (rc = .ok ↔
          accepts impl x.w.more.windowBits dictionary) ∧
        (rc = .ok →
          ∃ new,
            x'.w.privData = .live new ∧
              new.impl = x'.w.impl ∧
              new.dictionary view =
                installed impl x.w.more.windowBits
                  dictionary ∧
              new.head view = head) := by
  rcases hBelow with ⟨hHeld, hImpl, new, hPriv, hNew, hFresh⟩
  rcases callSub_some
      (world.soft.inflateSetDictionary dictionary)
      hHeld.owns
      (fun z s =>
        ⟨_, show
          onHardware
              (fun st =>
                some (hInflateSetDictionary dictionary st))
              z s = some _ from rfl⟩) with
    ⟨rc, y, hCall⟩
  have hSet :
      inflateSetDictionary lib world dictionary x =
        some (rc, cacheDictionary lib dictionary y) := by
    unfold inflateSetDictionary
    rw [hHeld.guarded, hCall]
    rfl
  refine ⟨rc, _, hSet, inflateSetDictionary_held hHeld hSet,
    ?_⟩
  have hCopy :
      (cacheDictionary lib dictionary y).w.privData =
          y.w.privData ∧
        (cacheDictionary lib dictionary y).w.impl =
          y.w.impl := by
    rcases cacheDictionary_keeps lib dictionary y with
      ⟨copy, len, hEq⟩
    rw [hEq]
    exact ⟨rfl, rfl⟩
  rw [hCopy.1, hCopy.2]
  cases callSub_called hHeld.owns hCall with
  | @hw s s' _ strm hHw hLive hSome =>
      cases hPriv.symm.trans hLive
      have hHere : impl = .hw := hNew.symm
      subst hHere
      rcases onHardware_some hSome with ⟨hRc, rfl⟩
      rcases hFresh with
        ⟨hFormat, hAdler, hPage, hOffs, hLen, hHead⟩
      have hFits : ¬ dictionary.length > zedcDictLen := by
        have hMore : zlibMaxDictLen ≤ zedcDictLen := by
          decide
        omega
      have hZlib :
          s.h.format = .zlib ↔
            formatInit x.w.more.windowBits = some .zlib := by
        rw [hFormat]
        exact ⟨fun h => congrArg some h, Option.some.inj⟩
      have hZero : s.h.dictAdler32.toNat = 0 := by
        rw [hAdler]
        rfl
      subst hRc
      unfold hInflateSetDictionary zedcInflateSetDictionary
        accepts
      simp only [if_neg hFits]
      by_cases hWrong :
          s.h.format = .zlib ∧
            adler32 1 dictionary ≠ s.h.dictAdler32.toNat
      · rw [if_pos hWrong]
        rw [hZero] at hWrong
        refine ⟨⟨nofun, fun hRight => ?_⟩, nofun⟩
        exact absurd (hRight (hZlib.mp hWrong.1)) hWrong.2
      · rw [if_neg hWrong]
        rw [hZero] at hWrong
        refine ⟨⟨fun _ hIs => ?_, fun _ => rfl⟩, fun _ => ?_⟩
        · by_contra hNot
          exact hWrong ⟨hZlib.mpr hIs, hNot⟩
        · refine ⟨_, rfl, hHw.symm, ?_, hHead⟩
          unfold Sub.dictionary zedcInflateGetDictionary
            installed
          simp only [hPage, hOffs, if_true]
          exact ByteMem.window_store_same _ 0 dictionary
  | @sw s s' _ strm hSw hLive hEq =>
      cases hPriv.symm.trans hLive
      have hHere : impl = .sw := hNew.symm
      subst hHere
      rcases hFresh with ⟨hStart, hBits, hNone, hHead⟩
      have hNeeds : rc ≠ .memError := by
        intro hMem
        have hNot := hMemory dictionary x.strm s
        rw [hEq] at hNot
        exact hNot hMem
      have hRefuse := hDict.refuse hEq hStart
      have hTake := hDict.setDictionary hEq hStart
      rw [hBits] at hRefuse hTake
      refine ⟨⟨hRefuse, fun hRaw => (hTake hRaw hNeeds).1⟩,
        fun hOk => ?_⟩
      refine ⟨_, rfl, hSw.symm,
        (hTake (hRefuse hOk) hNeeds).2, ?_⟩
      exact (hSoft.setDictionary hEq).2.trans hHead

/-
  A fresh state is given the dictionary: the call goes on where
  it takes it, and only there.
-/
theorem switchDictionary_fresh
    (lib : InflateLib)
    {dictionary : List UInt8}
    (hSoft : Documented view.toSoftView world.soft)
    (hDict : Remembers view world.soft)
    (hMemory :
      ∀ dictionary z s,
        (world.soft.inflateSetDictionary dictionary z s).1 ≠
          .memError)
    (hBelow : FreshBelow view head impl x)
    (hSmall : dictionary.length ≤ zlibMaxDictLen) :
    (dictionary = [] ∨
        accepts impl x.w.more.windowBits dictionary →
      ∃ y new,
        switchDictionary lib world dictionary x =
            some (.go y) ∧
          y.w.privData = .live new ∧ new.impl = y.w.impl ∧
          new.dictionary view =
            installed impl x.w.more.windowBits dictionary ∧
          new.head view = head) ∧
    (∀ y,
      switchDictionary lib world dictionary x =
          some (.go y) →
        dictionary = [] ∨
          accepts impl x.w.more.windowBits dictionary) := by
  by_cases hEmpty : dictionary = []
  · subst hEmpty
    refine ⟨fun _ => ?_, fun _ _ => Or.inl rfl⟩
    rcases hBelow with ⟨_, hImpl, new, hPriv, hNew, hFresh⟩
    refine ⟨x, new, rfl, hPriv, hNew.trans hImpl.symm, ?_⟩
    cases new with
    | hw s =>
        have hHere : impl = .hw := hNew.symm
        subst hHere
        rcases hFresh with ⟨_, _, _, _, hLen, hHead⟩
        refine ⟨?_, hHead⟩
        unfold Sub.dictionary zedcInflateGetDictionary
        simp only [hLen]
        rfl
    | sw s =>
        have hHere : impl = .sw := hNew.symm
        subst hHere
        exact ⟨hFresh.2.2.1.trans List.drop_nil.symm,
          hFresh.2.2.2⟩
  have hSome : ¬ dictionary.length = 0 := by
    intro hZero
    exact hEmpty (List.length_eq_zero_iff.mp hZero)
  rcases inflateSetDictionary_fresh lib hSoft hDict
    hMemory hBelow hSmall with
    ⟨rc, x', hSet, hHeld, hOk, hHolds⟩
  unfold switchDictionary
  rw [if_neg hSome, hSet, Option.bind_some]
  simp only
  constructor
  · rintro (hNone | hTaken)
    · exact absurd hNone hEmpty
    have hGood := hOk.mpr hTaken
    rcases hHolds hGood with ⟨new, hPriv, hImpl, hBoth⟩
    rw [if_pos hGood]
    exact ⟨x', new, rfl, hPriv, hImpl, hBoth⟩
  · intro y hGo
    right
    split at hGo
    · rename_i hGood
      exact hOk.mp hGood
    · rcases Option.map_eq_some_iff.mp hGo with
        ⟨ret, _, hExit⟩
      cases hExit

------------------------------------------------------------
-- The Exchange
------------------------------------------------------------

/- The old state is ended and a new one is initialised. -/
def SwitchStarts
    (lib : InflateLib)
    (world : InflateWorld σ)
    (impl : Impl)
    (x : InflateWrap σ) : Prop :=
  ∃ x₁ x₂,
    inflateEndSub world x = some (.ok, x₁) ∧
      inflateInitSub lib world
          { x₁ with w := { x₁.w with impl := impl } } =
        (.ok, x₂)

/- What the switch reads of the old state. -/
theorem inflateGetDictionary_read
    (lib : InflateLib)
    {old : Sub InflateHw σ}
    (hDict : Remembers view world.soft)
    (hOld : x.w.privData = .live old)
    (hImpl : old.impl = x.w.impl) :
    inflateGetDictionary lib world x =
      some (.ok, readBack lib view x old) := by
  unfold inflateGetDictionary
  rw [hOld, ← hImpl]
  cases old with
  | hw s => rfl
  | sw s =>
      unfold readBack
      simp only [Sub.impl]
      split
      · rw [hDict.getDictionary]
      · rfl

/- The exchange is that of the parts behind it. -/
theorem switchTo_fresh
    {old : Sub InflateHw σ}
    (hSoft : Documented view.toSoftView world.soft)
    (hDict : Remembers view world.soft)
    (hHeld : Held x)
    (hOld : x.w.privData = .live old)
    (hImpl : old.impl = x.w.impl)
    (hSmall :
      (readBack lib view x old).length ≤ zlibMaxDictLen)
    (hStarts : SwitchStarts lib world impl x) :
    ∃ x₃,
      switchTo lib world impl x =
          switchDictionary lib world
            (readBack lib view x old) x₃ ∧
        x₃.w.more.windowBits = x.w.more.windowBits ∧
        FreshBelow view
          (installedHead
            (landing world impl x.w.more.windowBits)
            x.w.more.windowBits x.w.more.gzhead)
          (landing world impl x.w.more.windowBits) x₃ := by
  rcases hStarts with ⟨x₁, x₂, hEnd, hInit⟩
  have hGet :=
    inflateGetDictionary_read lib hDict hOld hImpl
  have hRestored := Initialised.restored hHeld hEnd hInit
  have hLanding := inflateInitSub_landing hInit
  have hNew := (inflateInitSub_spec hInit).1 rfl
  rcases hNew.fresh hSoft hDict with ⟨new, hPriv, hFresh⟩
  rcases hNew.keeps with ⟨_, _, ⟨sub, hSub, hSame⟩, allow, hMore⟩
  cases hPriv.symm.trans hSub
  rcases endSub_spec hEnd with ⟨priv, rfl⟩
  have hBits : x₂.w.more.windowBits = x.w.more.windowBits := by
    rw [hMore]
  have hHead : x₂.w.more.gzhead = x.w.more.gzhead := by
    rw [hMore]
  have hBelow :
      FreshBelow view none
        (landing world impl x.w.more.windowBits)
        { x₂ with state := .internal } := by
    refine ⟨hRestored, hLanding, new, hPriv,
      hSame.trans hLanding, ?_⟩
    show FreshSub view x₂.w.more.windowBits none new
    rw [hBits]
    exact hFresh
  rcases switchHeader_fresh hSoft hDict hBelow with
    ⟨x₃, hHeader, hBits₃, hBelow₃⟩
  refine ⟨x₃, ?_, hBits₃.trans hBits, ?_⟩
  · rw [switchTo_initialised hGet hSmall hEnd hInit]
    unfold switchRestore
    rw [hHeader, Option.bind_some]
  · simp only at hBelow₃
    rw [hBits, hHead] at hBelow₃
    exact hBelow₃

/-
  The dictionary and the header survive an exchange where the
  new implementation can hold what the old one held, and where
  that is what is read back; and nowhere else.
-/
theorem holding_survives_iff
    {windowBits : Int}
    {trace : List (WrapLabel σ)}
    {args : WrapInflate}
    {old : Sub InflateHw σ}
    (hRun : WrapRun lib windowBits trace x)
    (hSwitches : Switches lib impl (args.offer x))
    (hSoft : Documented view.toSoftView world.soft)
    (hDict : Remembers view world.soft)
    (hMemory :
      ∀ dictionary z s,
        (world.soft.inflateSetDictionary dictionary z s).1 ≠
          .memError)
    (hStarts : SwitchStarts lib world impl (args.offer x))
    (hOld : x.w.privData = .live old) :
    Survives lib world view old (args.offer x) ↔
      Carries lib view
        (landing world impl x.w.more.windowBits) x old := by
  have hHeld : Held x := by
    rcases held_of_run hRun with hHeld | hNull
    · exact hHeld
    · exact nomatch hNull.symm.trans hSwitches.1
  have hImpl : old.impl = x.w.impl := by
    rcases hHeld.owns with ⟨sub, hSub, hSame⟩
    cases hOld.symm.trans hSub
    exact hSame
  unfold Survives
  rw [hSwitches.entered]
  by_cases hSmall :
      (readBack lib view x old).length ≤ zlibMaxDictLen
  swap
  · constructor
    · rintro ⟨y, new, hGo, _⟩
      cases switchTo_switched hGo with
      | initialised hGet hFits _ _ _ =>
          have hRead :=
            @inflateGetDictionary_read σ world view
              (args.offer x) lib old hDict hOld hImpl
          cases hRead.symm.trans hGet
          exact absurd hFits hSmall
    · intro hCarries
      exact absurd hCarries.fits hSmall
  rcases switchTo_fresh hSoft hDict (hHeld.offer args) hOld
    hImpl hSmall hStarts with ⟨x₃, hSwitch, hBits, hBelow⟩
  rcases switchDictionary_fresh lib hSoft hDict
    hMemory hBelow hSmall with ⟨hTaken, hOnly⟩
  rw [hSwitch]
  rw [hBits] at hTaken hOnly
  constructor
  · rintro ⟨y, new, hGo, hPriv, _, hSameDict, hSameHead⟩
    have hAccepts := hOnly y hGo
    rcases hTaken hAccepts with
      ⟨y', new', hGo', hPriv', _, hInstalled, hHead⟩
    cases hGo.symm.trans hGo'
    cases hPriv.symm.trans hPriv'
    exact ⟨hSmall, hAccepts,
      hInstalled.symm.trans hSameDict,
      hHead.symm.trans hSameHead⟩
  · intro hCarries
    rcases hTaken hCarries.accepted with
      ⟨y, new, hGo, hPriv, hSame, hInstalled, hHead⟩
    exact ⟨y, new, hGo, hPriv, hSame,
      hInstalled.trans hCarries.dictionary,
      hHead.trans hCarries.head⟩

end Switch

end Survival

/- A software zlib with a dictionary, too. -/
abbrev DictSoft := FormatSoft × List UInt8

def dictView : DictView DictSoft where
  windowBits s := s.1.1
  head s := s.1.2
  dictionary s := s.2
  fresh s := s.2 = []

def dictSoftware : Software DictSoft where
  inflateInit2 windowBits z :=
    (.ok, z, ((windowBits, none), []))
  inflateReset z s := (.ok, z, ((s.1.1, none), []))
  inflateReset2 windowBits z s :=
    if -15 ≤ windowBits ∧ windowBits ≤ 47 then
      (.ok, z, ((windowBits, none), []))
    else (.streamError, z, s)
  inflateSetDictionary dictionary z s :=
    if s.1.1 < 0 then
      (.ok, z,
        (s.1,
          dictionary.drop
            (dictionary.length - softWindow s.1.1)))
    else (.streamError, z, s)
  inflateGetDictionary _ s := (.ok, s.2)
  inflateGetHeader head z s :=
    if 16 ≤ s.1.1 then
      (.ok, z, ((s.1.1, some { head with done := false }), s.2))
    else (.streamError, z, s)
  inflate _ z s := (.ok, z, s)
  inflateEnd _ _ := .ok

theorem dictSoftware_documented :
    Documented dictView.toSoftView dictSoftware := by
  constructor
  · intro windowBits z strm s hInit
    cases hInit
    exact ⟨rfl, rfl⟩
  · intro z s rc strm s' hReset
    cases hReset
    exact ⟨rfl, fun hHead => absurd rfl hHead⟩
  · intro windowBits z s strm s' hReset
    unfold dictSoftware at hReset
    simp only at hReset
    split at hReset <;> cases hReset
    exact ⟨rfl, rfl⟩
  · intro windowBits z s rc strm s' hReset hBad
    unfold dictSoftware at hReset
    simp only at hReset
    split at hReset <;> cases hReset
    · exact absurd rfl hBad
    · exact ⟨rfl, rfl⟩
  · intro dictionary z s rc strm s' hSet
    unfold dictSoftware at hSet
    simp only at hSet
    split at hSet <;> cases hSet <;> exact ⟨rfl, rfl⟩
  · intro head z s rc strm s' hGet
    unfold dictSoftware at hGet
    simp only at hGet
    split at hGet
    · rename_i hLarge
      cases hGet
      exact ⟨rfl, fun _ => ⟨hLarge, rfl⟩,
        fun hBad => absurd rfl hBad⟩
    · cases hGet
      exact ⟨rfl, nofun, fun _ => rfl⟩
  · intro flush z s rc strm s' hInflate
    cases hInflate
    exact ⟨rfl, id⟩

theorem dictSoftware_remembers :
    Remembers dictView dictSoftware := by
  constructor
  · intro windowBits z strm s hInit
    cases hInit
    exact ⟨rfl, rfl⟩
  · intro head z s rc strm s' hGet hFresh
    unfold dictSoftware at hGet
    simp only at hGet
    split at hGet
    · cases hGet
      exact ⟨hFresh, rfl, fun _ => rfl⟩
    · rename_i hSmall
      cases hGet
      exact ⟨hFresh, rfl,
        fun hLarge => absurd hLarge hSmall⟩
  · intro dictionary z s rc strm s' hSet _ hOk
    unfold dictSoftware at hSet
    simp only at hSet
    split at hSet
    · assumption
    · cases hSet
      exact nomatch hOk
  · intro dictionary z s rc strm s' hSet _ hRaw _
    unfold dictSoftware at hSet
    simp only at hSet
    split at hSet
    · cases hSet
      exact ⟨rfl, rfl⟩
    · rename_i hNot
      exact absurd hRaw hNot
  · intro z s
    rfl

/- That software, with a card or without one. -/
def dictWorld
    (hwInit : Option { rc : Rc // rc ≠ .ok }) :
    InflateWorld DictSoft where
  soft := dictSoftware
  hwInit := hwInit
  card _ := ⟨fun _ _ => quietResp⟩

/- No `inflateGetDictionary`, and the hardware for all input. -/
def copyLib : InflateLib :=
  { smallLib with
    inflateThreshold := 0
    hasGetDictionary := false }

/-
  The software refuses a dictionary in front of a GZIP stream,
  and the exchange installs it on the hardware.
-/
theorem refused_dictionary_installed :
    Documented dictView.toSoftView dictSoftware ∧
    Remembers dictView dictSoftware ∧
    ∃ x₀ x₁ x : InflateWrap DictSoft, ∃ old,
      WrapRun copyLib 31
          [⟨x₀, dictWorld none, .reset, .ok⟩,
            ⟨x₁, dictWorld none, .setDictionary [0x61],
              .streamError⟩] x ∧
        Switches copyLib .hw (oneByte.offer x) ∧
        SwitchStarts copyLib (dictWorld none) .hw
            (oneByte.offer x) ∧
        x.w.privData = .live old ∧
        ¬ Survives copyLib (dictWorld none) dictView old
            (oneByte.offer x) := by
  refine ⟨dictSoftware_documented, dictSoftware_remembers,
    _, _, _, _,
    ⟨dictWorld (some ⟨.streamError, by decide⟩),
      ZStream.initial, _, rfl,
      (Run.start.next ⟨rfl, 1, rfl⟩).next ⟨rfl, 1, rfl⟩⟩,
    ⟨rfl, rfl, rfl, by decide, rfl⟩, ⟨_, _, rfl, rfl⟩, rfl,
    ?_⟩
  rintro ⟨y, new, hGo, hPriv, _, hSame, _⟩
  cases hGo
  cases hPriv
  have hNone : [(0x61 : UInt8)] = [] := hSame
  exact nomatch hNone

/- A raw stream of the hardware, -/
def rawStart : InflateWrap DictSoft :=
  ((inflateInit2 smallLib (dictWorld none) (-15)
    ZStream.initial).2).get rfl

/- with a dictionary of one byte. -/
def rawStream : InflateWrap DictSoft :=
  ((inflateSetDictionary smallLib (dictWorld none) [0x61]
    rawStart).get rfl).2

theorem rawStream_run :
    WrapRun smallLib (-15)
      [⟨rawStart, dictWorld none, .setDictionary [0x61],
        .ok⟩] rawStream :=
  ⟨dictWorld none, ZStream.initial, _, rfl,
    Run.start.next ⟨rfl, 1, rfl⟩⟩

theorem holding_survives_raw :
    ∃ old,
      rawStream.w.privData = .live old ∧
        Survives smallLib (dictWorld none) dictView old
          (oneByte.offer rawStream) := by
  refine ⟨_, rfl, ?_⟩
  refine (holding_survives_iff rawStream_run
    (⟨rfl, rfl, rfl, by decide, rfl⟩ :
      Switches smallLib .sw (oneByte.offer rawStream))
    dictSoftware_documented dictSoftware_remembers ?_
    ⟨_, _, rfl, rfl⟩ rfl).mpr ?_
  · intro dictionary z s
    show (dictSoftware.inflateSetDictionary dictionary z s).1 ≠
      .memError
    unfold dictSoftware
    simp only
    split <;> exact nofun
  · refine ⟨?_, Or.inr ?_, ?_, rfl⟩
    · show 1 ≤ zlibMaxDictLen
      decide
    · show (-15 : Int) < 0
      decide
    · show
        List.drop (1 - softWindow (-15)) [(0x61 : UInt8)] =
          [0x61]
      decide

end Wrapper
