import GenWqe.Hardware.Bookkeeping
import GenWqe.Wrapper.Failure

/-
  The format and the header that the implementation in use
  works with, and those that the application has asked for
  last.

  Key definitions include:
    * `SoftView`, `Documented`
    * `Asked`, `askedFor`
    * `FormatFits`, `InEffect`
    * `Follows`, `Agrees`

  Main results:
    * `hInflate_format`
    * `agrees_of_run`
    * `format_in_effect`
-/

------------------------------------------------------------
-- The Hardware Stream
------------------------------------------------------------

namespace Wrapper

open Zedc Hardware Session

section Hardware

variable {disabled internal : Bool}
variable {flush : Flush} {env : InflateEnv}
variable {st : HInflate}

/- A round does not touch the window bits. -/
theorem hInflateRound_windowBits
    {result : Sum (Rc × HInflate) HInflate}
    (hRound :
      hInflateRound disabled internal flush env st =
        some result) :
    (roundState result).s.windowBits = st.s.windowBits := by
  have hStart :
      (roundState (hInflateStart flush st)).s.windowBits =
        st.s.windowBits := by
    have hDrain :
        ∀ st : HInflate,
          (hInflateDrain st).2.s.windowBits =
            st.s.windowBits := by
      intro st
      unfold hInflateDrain
      split <;> rfl
    unfold hInflateStart
    simp only
    split
    · exact hDrain _
    · split
      · rfl
      · split
        · rfl
        · split <;> rfl
  unfold hInflateRound at hRound
  generalize hInflateStart flush st = start
    at hStart hRound
  cases start with
  | inl ret =>
      cases hRound
      exact hStart
  | inr st₁ =>
      simp only at hRound
      cases hSent : hInflateSent internal flush env st₁ with
      | none =>
          rw [hSent] at hRound
          cases hRound
      | some st₂ =>
          have hBits₂ :
              st₂.s.windowBits = st₁.s.windowBits := by
            rcases hInflateSent_some hSent with
              ⟨ret, _, _, _, _, hEq⟩
            rw [hEq]
            cases internal <;> rfl
          rw [hSent] at hRound
          simp only at hRound
          unfold hInflateResult at hRound
          simp only at hRound
          have hFlushed :
              (hInflateFlushObuf st₂).s.windowBits =
                st₂.s.windowBits := rfl
          generalize hInflateFlushObuf st₂ = st₃
            at hFlushed hRound
          have hBits₃ :=
            hFlushed.trans (hBits₂.trans hStart)
          split at hRound
          · cases hRound
            exact hBits₃
          · rcases Option.map_eq_some_iff.mp hRound with
              ⟨st₄, hCheck, rfl⟩
            have hBits₄ :
                st₄.s.windowBits = st₃.s.windowBits := by
              unfold hInflateCheckEnd at hCheck
              split at hCheck
              · split at hCheck
                · cases hCheck
                · cases hCheck
                  rfl
              · cases hCheck
                rfl
            unfold hInflateRoundEnd
            split_ifs <;> exact hBits₄.trans hBits₃

/- The window bits and what they came to, and the header. -/
structure FormatKept (s s' : InflateHw) : Prop where
  format : s'.h.format = s.h.format
  head :
    s'.h.prefx.gzipHead.isSome = s.h.prefx.gzipHead.isSome
  windowBits : s'.windowBits = s.windowBits

/- `h_inflate` does not touch them. -/
theorem hInflate_format
    {fuel : Nat}
    {env : Nat → InflateEnv}
    {ret : Rc × HInflate}
    (hCall :
      hInflate disabled fuel flush env st = some ret) :
    FormatKept st.s ret.2.s := by
  have hRule :
      StreamRule
        (fun h =>
          h.format = st.s.h.format ∧
            h.prefx.gzipHead.isSome =
              st.s.h.prefx.gzipHead.isSome) := by
    refine ⟨fun _ _ _ _ _ hSame => hSame, ?_, ?_,
      fun _ hSame => hSame⟩
    · intro flush env h ret hSame hCall
      have hKept := zedcInflate_format hCall
      exact ⟨hKept.1.trans hSame.1, hKept.2.trans hSame.2⟩
    · intro len h bs h' hSame hRead
      unfold zedcReadPendingOutput at hRead
      split at hRead
      · cases hRead
        exact hSame
      · split at hRead
        · cases hRead
        · cases hRead
          exact hSame
  have hBits : ret.2.s.windowBits = st.s.windowBits := by
    unfold hInflate at hCall
    split at hCall
    · unfold hInflateDirect hInflateCall at hCall
      simp only at hCall
      cases hSent :
          zedcInflate flush (env 0)
            (hInflateOffer false st) with
      | none =>
          rw [hSent] at hCall
          cases hCall
      | some ret' =>
          rw [hSent] at hCall
          cases hCall
          rfl
    · split at hCall
      · cases hCall
        rfl
      · refine hInflateLoop_rule
          (fun st' => st'.s.windowBits = st.s.windowBits)
          (fun ret => ret.2.s.windowBits = st.s.windowBits)
          ?_ rfl hCall
        intro n st₁ result hSame hRound
        have hNext :=
          (hInflateRound_windowBits hRound).trans hSame
        cases result with
        | inl ret => exact hNext
        | inr st₂ => exact hNext
  have hKept := hRule.hInflate ⟨rfl, rfl⟩ hCall
  exact ⟨hKept.1, hKept.2, hBits⟩

end Hardware

------------------------------------------------------------
-- The Software
------------------------------------------------------------

section Software

variable {σ : Type}

/- What can be seen of a state of the software zlib. -/
structure SoftView (σ : Type) where
  windowBits : σ → Int
  head : σ → Option GzedcHeader

/-
  What its functions do to that. A new window size also takes
  the header away, and only a stream that may be a GZIP one
  has a header.
-/
structure Documented
    (view : SoftView σ) (soft : Software σ) : Prop where
  init :
    ∀ {windowBits z strm s},
      soft.inflateInit2 windowBits z = (.ok, strm, s) →
        view.windowBits s = windowBits ∧ view.head s = none
  reset :
    ∀ {z s rc strm s'},
      soft.inflateReset z s = (rc, strm, s') →
        view.windowBits s' = view.windowBits s ∧
          (view.head s' ≠ none → view.head s ≠ none)
  reset2 :
    ∀ {windowBits z s strm s'},
      soft.inflateReset2 windowBits z s = (.ok, strm, s') →
        view.windowBits s' = windowBits ∧
          view.head s' = none
  refuse :
    ∀ {windowBits z s rc strm s'},
      soft.inflateReset2 windowBits z s = (rc, strm, s') →
      rc ≠ .ok →
        view.windowBits s' = view.windowBits s ∧
          view.head s' = view.head s
  setDictionary :
    ∀ {dictionary z s rc strm s'},
      soft.inflateSetDictionary dictionary z s =
        (rc, strm, s') →
        view.windowBits s' = view.windowBits s ∧
          view.head s' = view.head s
  getHeader :
    ∀ {head z s rc strm s'},
      soft.inflateGetHeader head z s = (rc, strm, s') →
        view.windowBits s' = view.windowBits s ∧
          (rc = .ok → 16 ≤ view.windowBits s ∧
            view.head s' = some { head with done := false }) ∧
          (rc ≠ .ok → view.head s' = view.head s)
  inflate :
    ∀ {flush z s rc strm s'},
      soft.inflate flush z s = (rc, strm, s') →
        view.windowBits s' = view.windowBits s ∧
          (view.head s' ≠ none → view.head s ≠ none)

------------------------------------------------------------
-- What Was Asked For
------------------------------------------------------------

/- The implementation that a call of `inflate` changes to. -/
def exchanges
    (lib : InflateLib) (x : InflateWrap σ) : Option Impl :=
  if x.strm.totalIn = 0 ∧ x.w.more.allowSwitching ∧
      x.strm.nextIn ≠ [] then
    switchTarget lib x
  else none

/-
  What the application has asked for: the window bits at
  first and those in the end, and whether a header was
  registered behind the last `inflateReset2` that went well,
  behind the last `inflateReset`, and for the hardware stream.
-/
structure Asked where
  first : Int
  bits : Int
  fresh : Bool
  kept : Bool
  below : Bool

def Asked.initial (windowBits : Int) : Asked :=
  ⟨windowBits, windowBits, false, false, false⟩

/- The header is passed on where the implementation changes. -/
def Asked.entered
    (lib : InflateLib) (a : Asked) (x : InflateWrap σ) :
    Asked :=
  if (exchanges lib x).isSome then
    { a with below := a.kept }
  else a

def Asked.after
    (lib : InflateLib) (a : Asked) (l : WrapLabel σ) :
    Asked :=
  match l.op with
  | .inflate args => a.entered lib (args.offer l.before)
  | .reset => { a with kept := false }
  | .reset2 windowBits =>
      if l.rc = .ok then
        { a with bits := windowBits, fresh := false }
      else a
  | .setDictionary _ => a
  | .getHeader _ =>
      { a with fresh := true, kept := true, below := true }

/- What the calls of a run have asked for. -/
def askedFor
    (lib : InflateLib)
    (windowBits : Int)
    (trace : List (WrapLabel σ)) : Asked :=
  trace.foldl (Asked.after lib) (Asked.initial windowBits)

theorem askedFor_next
    (lib : InflateLib)
    (windowBits : Int)
    (trace : List (WrapLabel σ))
    (l : WrapLabel σ) :
    askedFor lib windowBits (trace ++ [l]) =
      (askedFor lib windowBits trace).after lib l := by
  unfold askedFor
  rw [List.foldl_append]
  rfl

/-
  An exchange finds the window bits that the stream was set
  up with still asked for. Where a GZIP stream is asked for,
  no header is left from before the last `inflateReset2`: on
  an exchange none that `inflateReset` has not taken away,
  without one none that the hardware stream was given.
-/
def FormatFits
    (lib : InflateLib) (a : Asked) (x : InflateWrap σ) :
    Prop :=
  if (exchanges lib x).isSome then
    a.bits = a.first ∧ (16 ≤ a.bits → a.kept → a.fresh)
  else
    x.w.impl = .hw → 16 ≤ a.bits → a.below → a.fresh

/-
  The format and the header with which a state is ready to
  work are those that were asked for.
-/
def InEffect
    (view : SoftView σ) (a : Asked) :
    Sub InflateHw σ → Prop
  | .hw s =>
      formatInit a.bits = some s.h.format ∧
        (s.h.format = .gzip →
          s.h.prefx.gzipHead ≠ none → a.fresh = true)
  | .sw s =>
      view.windowBits s = a.bits ∧
        (view.head s ≠ none → a.fresh = true)

/- A call of `inflate` gets to the implementation. -/
def Processes
    (lib : InflateLib)
    (world : InflateWorld σ)
    (x y : InflateWrap σ) : Prop :=
  x.state = .internal ∧
    inflateEntered lib world x = some (.go y)

------------------------------------------------------------
-- What the Calls Keep
------------------------------------------------------------

/- A state agrees with what was asked for. -/
def Tracks
    (view : SoftView σ) (a : Asked) :
    Sub InflateHw σ → Prop
  | .hw s =>
      formatInit a.bits = some s.h.format ∧
        (∀ format, formatInit s.windowBits = some format →
          format = s.h.format) ∧
        (s.h.prefx.gzipHead.isSome = true →
          a.below = true)
  | .sw s =>
      view.windowBits s = a.bits ∧
        (view.head s ≠ none → a.fresh = true)

/- The state below is live and agrees. -/
def TracksBelow
    (view : SoftView σ) (a : Asked) (x : InflateWrap σ) :
    Prop :=
  ∃ sub,
    x.w.privData = .live sub ∧ sub.impl = x.w.impl ∧
      Tracks view a sub

/- And so do the copies that the wrapper keeps. -/
structure Follows
    (view : SoftView σ) (a : Asked) (x : InflateWrap σ) :
    Prop where
  first : x.w.more.windowBits = a.first
  kept : x.w.more.gzhead ≠ none → a.kept = true
  below : TracksBelow view a x

section Steps

variable {lib : InflateLib} {world : InflateWorld σ}
variable {view : SoftView σ} {a a' : Asked}
variable {x x' : InflateWrap σ} {rc : Rc}

/- A call below, for what both functions do to a state. -/
theorem CalledSub.tracks
    {onHw : ZStream → InflateHw →
      Option (Rc × ZStream × InflateHw)}
    {onSw : ZStream → σ → Rc × ZStream × σ}
    (hCalled : CalledSub onHw onSw x rc x')
    (hBelow : TracksBelow view a x)
    (hHw :
      ∀ {z s strm s'},
        onHw z s = some (rc, strm, s') →
        Tracks view a (.hw s) → Tracks view a' (.hw s'))
    (hSw :
      ∀ {z s strm s'},
        onSw z s = (rc, strm, s') →
        Tracks view a (.sw s) → Tracks view a' (.sw s')) :
    TracksBelow view a' x' := by
  rcases hBelow with ⟨sub, hPriv, _, hTracks⟩
  cases hCalled with
  | hw hImpl hLive hSome =>
      cases hPriv.symm.trans hLive
      exact ⟨_, rfl, hImpl.symm, hHw hSome hTracks⟩
  | sw hImpl hLive hEq =>
      cases hPriv.symm.trans hLive
      exact ⟨_, rfl, hImpl.symm, hSw hEq hTracks⟩

/- A hardware state whose format was not touched. -/
theorem FormatKept.tracks
    {s s' : InflateHw}
    (hKept : FormatKept s s')
    (hTracks : Tracks view a (.hw s)) :
    Tracks view a (.hw s') := by
  rcases hTracks with ⟨hBits, hSame, hHead⟩
  refine ⟨?_, ?_, ?_⟩
  · rw [hKept.format]
    exact hBits
  · rw [hKept.format, hKept.windowBits]
    exact hSame
  · rw [hKept.head]
    exact hHead

/- A hardware function that always returns. -/
theorem onHardware_some
    {f : HInflate → Rc × HInflate}
    {z strm : ZStream}
    {s s' : InflateHw}
    (hCall :
      onHardware (fun st => some (f st)) z s =
        some (rc, strm, s')) :
    rc = (f ⟨z, s, []⟩).1 ∧ s' = (f ⟨z, s, []⟩).2.s := by
  unfold onHardware at hCall
  cases hCall
  exact ⟨rfl, rfl⟩

/- A reset of the hardware stream with other window bits. -/
theorem tracks_reset2
    {windowBits : Int}
    {z : ZStream}
    {s : InflateHw}
    (hTracks : Tracks view a (.hw s)) :
    let ret := hInflateReset2 windowBits ⟨z, s, []⟩
    (ret.1 = .ok →
      Tracks view
        { a with bits := windowBits, fresh := false }
        (.hw ret.2.s)) ∧
      (ret.1 ≠ .ok → Tracks view a (.hw ret.2.s)) ∧
      (s.windowBits = windowBits →
        Tracks view a (.hw ret.2.s)) := by
  rcases hTracks with ⟨hBits, hSame, hHead⟩
  unfold hInflateReset2 zedcInflateReset
  cases hFormat : formatInit windowBits with
  | none =>
      have hKept :
          Tracks view a
            (.hw
              { h := inflateInitState s.h
                windowBits := windowBits
                rc := .ok
                obuf := Obuf.initial s.obuf.total }) := by
        refine ⟨hBits, ?_, hHead⟩
        intro format hOther
        exact nomatch hFormat.symm.trans hOther
      exact ⟨nofun, fun _ => hKept, fun _ => hKept⟩
  | some format =>
      refine ⟨fun _ => ⟨hFormat, ?_, hHead⟩,
        fun hBad => absurd rfl hBad, ?_⟩
      · intro other hOther
        exact Option.some.inj (hOther.symm.trans hFormat)
      · rintro rfl
        have hEq := hSame format hFormat
        refine ⟨?_, ?_, hHead⟩
        · show formatInit a.bits = some format
          rw [hEq]
          exact hBits
        · intro other hOther
          exact Option.some.inj (hOther.symm.trans hFormat)

theorem inflateReset_follows
    (hHeld : Held x)
    (hSoft : Documented view world.soft)
    (hFollows : Follows view a x)
    (hCall : inflateReset world x = some (rc, x')) :
    Follows view { a with kept := false } x' := by
  unfold inflateReset at hCall
  rw [hHeld.guarded] at hCall
  rcases Option.map_eq_some_iff.mp hCall with
    ⟨⟨rc', y⟩, hSub, hEq⟩
  cases hEq
  have hCalled := callSub_called (by exact hHeld.owns) hSub
  have hBelow :
      TracksBelow view { a with kept := false } y := by
    refine hCalled.tracks hFollows.below ?_ ?_
    · intro z s strm s' hSome hTracks
      rcases onHardware_some hSome with ⟨_, rfl⟩
      exact (tracks_reset2 hTracks).2.2 rfl
    · intro z s strm s' hSome hTracks
      have hReset := hSoft.reset hSome
      exact ⟨hReset.1.trans hTracks.1,
        fun hHead => hTracks.2 (hReset.2 hHead)⟩
  rcases hCalled.keeps with ⟨strm, sub, _, rfl⟩
  exact ⟨hFollows.first, fun hSome => absurd rfl hSome,
    hBelow⟩

theorem inflateReset2_follows
    {windowBits : Int}
    (hHeld : Held x)
    (hSoft : Documented view world.soft)
    (hFollows : Follows view a x)
    (hCall :
      inflateReset2 world windowBits x = some (rc, x')) :
    Follows view
      (if rc = .ok then
        { a with bits := windowBits, fresh := false }
      else a) x' := by
  unfold inflateReset2 at hCall
  rw [hHeld.guarded] at hCall
  rcases Option.map_eq_some_iff.mp hCall with
    ⟨⟨rc', y⟩, hSub, hEq⟩
  cases hEq
  have hCalled := callSub_called (by exact hHeld.owns) hSub
  have hBelow :
      TracksBelow view
        (if rc = .ok then
          { a with bits := windowBits, fresh := false }
        else a) y := by
    refine hCalled.tracks hFollows.below ?_ ?_
    · intro z s strm s' hSome hTracks
      rcases onHardware_some hSome with ⟨hRc, rfl⟩
      have hReset :=
        @tracks_reset2 σ view a windowBits z s hTracks
      split
      · rename_i hOk
        exact hReset.1 (hRc.symm.trans hOk)
      · rename_i hBad
        exact hReset.2.1
          (fun hOk => hBad (hRc.trans hOk))
    · intro z s strm s' hSome hTracks
      split
      · rename_i hOk
        subst hOk
        have hReset := hSoft.reset2 hSome
        exact ⟨hReset.1,
          fun hHead => absurd hReset.2 hHead⟩
      · rename_i hBad
        have hKept := hSoft.refuse hSome hBad
        refine ⟨hKept.1.trans hTracks.1, ?_⟩
        intro hHead
        rw [hKept.2] at hHead
        exact hTracks.2 hHead
  rcases hCalled.keeps with ⟨strm, sub, _, rfl⟩
  have hSame :
      (if rc = .ok then
          { a with bits := windowBits, fresh := false }
        else a).first = a.first ∧
      (if rc = .ok then
          { a with bits := windowBits, fresh := false }
        else a).kept = a.kept := by
    split <;> exact ⟨rfl, rfl⟩
  exact ⟨hFollows.first.trans hSame.1.symm,
    fun hHead => hSame.2.trans (hFollows.kept hHead),
    hBelow⟩

theorem inflateSetDictionary_follows
    {dictionary : List UInt8}
    (hHeld : Held x)
    (hSoft : Documented view world.soft)
    (hFollows : Follows view a x)
    (hCall :
      inflateSetDictionary lib world dictionary x =
        some (rc, x')) :
    Follows view a x' := by
  unfold inflateSetDictionary at hCall
  rw [hHeld.guarded] at hCall
  rcases Option.map_eq_some_iff.mp hCall with
    ⟨⟨rc', y⟩, hSub, hEq⟩
  cases hEq
  have hCalled := callSub_called hHeld.owns hSub
  have hBelow : TracksBelow view a y := by
    refine hCalled.tracks hFollows.below ?_ ?_
    · intro z s strm s' hSome hTracks
      rcases onHardware_some hSome with ⟨_, rfl⟩
      have hKept :
          FormatKept s
            (hInflateSetDictionary dictionary
              ⟨z, s, []⟩).2.s := by
        unfold hInflateSetDictionary
          zedcInflateSetDictionary
        split_ifs <;> exact ⟨rfl, rfl, rfl⟩
      exact hKept.tracks hTracks
    · intro z s strm s' hSome hTracks
      have hKept := hSoft.setDictionary hSome
      refine ⟨hKept.1.trans hTracks.1, ?_⟩
      intro hHead
      rw [hKept.2] at hHead
      exact hTracks.2 hHead
  rcases hCalled.keeps with ⟨strm, sub, _, rfl⟩
  show
    Follows view a
      (cacheDictionary lib dictionary (x.below strm sub))
  rcases cacheDictionary_keeps lib dictionary
    (x.below strm sub) with ⟨copy, len, hCopy⟩
  rw [hCopy]
  exact ⟨hFollows.first, hFollows.kept, hBelow⟩

/-
  A header registered: the hardware takes it, the software may
  refuse it.
-/
theorem inflateGetHeader_follows
    {head : GzedcHeader}
    (hHeld : Held x)
    (hSoft : Documented view world.soft)
    (hFollows : Follows view a x)
    (hBits : a'.bits = a.bits)
    (hFirst : a'.first = a.first)
    (hKept : a'.kept = true)
    (hBelow : a'.below = true)
    (hOld : a.fresh = true → a'.fresh = true)
    (hNew : 16 ≤ a'.bits → a'.fresh = true)
    (hCall :
      inflateGetHeader world head x = some (rc, x')) :
    Follows view a' x' := by
  unfold inflateGetHeader at hCall
  rw [hHeld.guarded] at hCall
  have hCalled := callSub_called (by exact hHeld.owns) hCall
  have hTracked : TracksBelow view a' x' := by
    refine hCalled.tracks hFollows.below ?_ ?_
    · intro z s strm s' hSome hTracks
      rcases onHardware_some hSome with ⟨_, rfl⟩
      rcases hTracks with ⟨hFormat, hSame, _⟩
      refine ⟨?_, hSame, fun _ => hBelow⟩
      rw [hBits]
      exact hFormat
    · intro z s strm s' hSome hTracks
      have hHeader := hSoft.getHeader hSome
      refine ⟨hHeader.1.trans (hTracks.1.trans hBits.symm),
        fun hHead => ?_⟩
      by_cases hOk : rc = .ok
      · have hLarge := (hHeader.2.1 hOk).1
        rw [hTracks.1, ← hBits] at hLarge
        exact hNew hLarge
      · rw [hHeader.2.2 hOk] at hHead
        exact hOld (hTracks.2 hHead)
  rcases hCalled.keeps with ⟨strm, sub, _, rfl⟩
  exact ⟨hFollows.first.trans hFirst.symm, fun _ => hKept,
    hTracked⟩

/- GZIP is asked for with large window bits only. -/
theorem gzip_bits
    {windowBits : Int}
    (hGzip : formatInit windowBits = some .gzip) :
    16 ≤ windowBits := by
  unfold formatInit at hGzip
  split_ifs at hGzip
  · cases hGzip
  · cases hGzip
  · omega
  · omega

/- A new state agrees with the window bits of the wrapper. -/
theorem Initialised.tracks
    (hNew : Initialised lib world x x')
    (hSoft : Documented view world.soft)
    (hBits : x.w.more.windowBits = a.bits) :
    TracksBelow view a x' := by
  cases hNew with
  | @hw st hImpl _ hInit =>
      refine ⟨.hw st.s, rfl, hImpl.symm, ?_⟩
      unfold hInflateInit2 at hInit
      cases hFormat : formatInit x.w.more.windowBits with
      | none =>
          rw [hFormat] at hInit
          cases hInit
      | some format =>
          rw [hFormat] at hInit
          cases hInit
          refine ⟨?_, ?_, nofun⟩
          · rw [← hBits]
            exact hFormat
          · intro other hOther
            exact Option.some.inj
              (hOther.symm.trans hFormat)
  | sw hInit =>
      have hDone := hSoft.init hInit
      exact ⟨_, rfl, rfl, hDone.1.trans hBits,
        fun hHead => absurd hDone.2 hHead⟩

theorem inflateInit2_follows
    {windowBits : Int}
    {z : ZStream}
    (hSoft : Documented view world.soft)
    (hInit :
      inflateInit2 lib world windowBits z = (.ok, some x)) :
    Follows view (Asked.initial windowBits) x := by
  unfold inflateInit2 at hInit
  simp only at hInit
  generalize hSub :
    inflateInitSub lib world _ = result at hInit
  rcases result with ⟨rc, y⟩
  simp only at hInit
  by_cases hOk : rc = .ok
  swap
  · rw [if_neg hOk] at hInit
    cases hInit
  rw [if_pos hOk] at hInit
  cases hInit
  have hNew := (inflateInitSub_spec hSub).1 hOk
  have hBelow :=
    hNew.tracks (a := Asked.initial windowBits) hSoft rfl
  rcases hNew.keeps.2.2.2 with ⟨allow, hMore⟩
  refine ⟨?_, ?_, hBelow⟩
  · show y.w.more.windowBits = windowBits
    rw [hMore]
  · intro hHead
    refine absurd ?_ hHead
    show y.w.more.gzhead = none
    rw [hMore]

------------------------------------------------------------
-- What an Exchange Keeps
------------------------------------------------------------

/- A live stream that agrees. -/
def Agrees
    (view : SoftView σ) (a : Asked) (x : InflateWrap σ) :
    Prop :=
  Held x ∧ Follows view a x

/- The stream agrees, unless the call has taken its state. -/
def Entered.Agrees
    (view : SoftView σ) (a : Asked) : Entered σ → Prop
  | .go x => Wrapper.Agrees view a x
  | .exit _ x => x.state = .null ∨ Wrapper.Agrees view a x

theorem switchHeader_agrees
    (hSoft : Documented view world.soft)
    (hAgrees : Agrees view a x)
    (hBelow : a.below = a.kept)
    (hFresh : 16 ≤ a.bits → a.kept = true → a.fresh = true)
    (hHeader : switchHeader world x = some x') :
    Agrees view a x' := by
  refine ⟨switchHeader_held hAgrees.1 hHeader, ?_⟩
  unfold switchHeader at hHeader
  cases hHead : x.w.more.gzhead with
  | none =>
      rw [hHead] at hHeader
      cases hHeader
      exact hAgrees.2
  | some head =>
      rw [hHead] at hHeader
      rcases Option.map_eq_some_iff.mp hHeader with
        ⟨⟨rc, y⟩, hCall, hEq⟩
      cases hEq
      have hKept : a.kept = true := by
        refine hAgrees.2.kept ?_
        rw [hHead]
        exact Option.some_ne_none head
      exact inflateGetHeader_follows hAgrees.1 hSoft
        hAgrees.2 rfl rfl hKept (hBelow.trans hKept) id
        (fun hLarge => hFresh hLarge hKept) hCall

theorem switchDictionary_agrees
    {dictionary : List UInt8}
    {entered : Entered σ}
    (hSoft : Documented view world.soft)
    (hAgrees : Agrees view a x)
    (hSwitch :
      switchDictionary lib world dictionary x =
        some entered) :
    entered.Agrees view a := by
  unfold switchDictionary at hSwitch
  split at hSwitch
  · cases hSwitch
    exact hAgrees
  · rcases Option.bind_eq_some_iff.mp hSwitch with
      ⟨⟨rc, y⟩, hSet, hRest⟩
    have hHeld := inflateSetDictionary_held hAgrees.1 hSet
    have hFollows :=
      inflateSetDictionary_follows hAgrees.1 hSoft hAgrees.2
        hSet
    simp only at hRest
    split at hRest
    · cases hRest
      exact ⟨hHeld, hFollows⟩
    · rcases Option.map_eq_some_iff.mp hRest with
        ⟨⟨rc', x'⟩, hEnd, hEq⟩
      cases hEq
      exact Or.inl (endWrap_spec hHeld hEnd).1

/- The dictionary of a hardware stream can always be read. -/
theorem inflateGetDictionary_soft
    {dictionary : List UInt8}
    {sub : Sub InflateHw σ}
    (hPriv : x.w.privData = .live sub)
    (hImpl : sub.impl = x.w.impl)
    (hGet :
      inflateGetDictionary lib world x =
        some (rc, dictionary))
    (hBad : rc ≠ .ok) :
    ∃ s, sub = .sw s := by
  unfold inflateGetDictionary at hGet
  rw [hPriv, ← hImpl] at hGet
  cases sub with
  | hw s =>
      cases hGet
      exact absurd rfl hBad
  | sw s => exact ⟨s, rfl⟩

/-
  An exchange that finds the first window bits still asked
  for, and no header that should be gone.
-/
theorem switchTo_agrees
    {impl : Impl}
    {entered : Entered σ}
    (hSoft : Documented view world.soft)
    (hAgrees : Agrees view a x)
    (hBits : a.bits = a.first)
    (hFresh : 16 ≤ a.bits → a.kept = true → a.fresh = true)
    (hSwitch : switchTo lib world impl x = some entered) :
    entered.Agrees view { a with below := a.kept } := by
  rcases hAgrees with ⟨hHeld, hFollows⟩
  cases switchTo_switched hSwitch with
  | noDictionary hGet hBad =>
      right
      rcases hFollows.below with
        ⟨sub, hPriv, hImpl, hTracks⟩
      rcases inflateGetDictionary_soft hPriv hImpl hGet hBad
        with ⟨s, rfl⟩
      exact ⟨hHeld, hFollows.first, hFollows.kept, _, hPriv,
        hImpl, hTracks⟩
  | notEnded _ hEnd _ =>
      rcases endSub_spec hEnd with ⟨priv, rfl⟩
      exact Or.inl rfl
  | notInitialised _ hEnd hInit hBad =>
      rcases endSub_spec hEnd with ⟨priv, rfl⟩
      rcases (inflateInitSub_spec hInit).2 hBad with
        ⟨strm, rfl⟩
      exact Or.inl rfl
  | @initialised _ x₁ x₂ _ _ _ hEnd hInit hRestore =>
      have hNewHeld := Initialised.restored hHeld hEnd hInit
      rcases endSub_spec hEnd with ⟨priv, rfl⟩
      have hNew := (inflateInitSub_spec hInit).1 rfl
      have hBelow :=
        hNew.tracks (a := { a with below := a.kept }) hSoft
          (hFollows.first.trans hBits.symm)
      rcases hNew.keeps.2.2.2 with ⟨allow, hMore⟩
      have hNewAgrees :
          Agrees view { a with below := a.kept }
            { x₂ with state := .internal } := by
        refine ⟨hNewHeld, ?_, ?_, hBelow⟩
        · show x₂.w.more.windowBits = a.first
          rw [hMore]
          exact hFollows.first
        · show x₂.w.more.gzhead ≠ none → a.kept = true
          rw [hMore]
          exact hFollows.kept
      rcases Option.bind_eq_some_iff.mp hRestore with
        ⟨y, hHeader, hDict⟩
      exact switchDictionary_agrees hSoft
        (switchHeader_agrees hSoft hNewAgrees rfl hFresh
          hHeader) hDict

/- Without an exchange the stream is passed on as it is. -/
theorem inflateEntered_same
    (hStay : ¬ (exchanges lib x).isSome)
    (hEntered :
      inflateEntered lib world x = some (.go x')) :
    x = x' := by
  unfold inflateEntered at hEntered
  split at hEntered
  · rename_i hFirst
    split at hEntered
    · cases hEntered
    · rename_i hInput
      have hSame : exchanges lib x = switchTarget lib x := by
        unfold exchanges
        exact if_pos ⟨hFirst.1, hFirst.2, hInput⟩
      rw [← hSame] at hEntered
      cases hImpl : exchanges lib x with
      | none =>
          rw [hImpl] at hEntered
          cases hEntered
          rfl
      | some impl =>
          rw [hImpl] at hStay
          exact absurd rfl hStay
  · cases hEntered
    rfl

/- With and without an exchange. -/
theorem inflateEntered_agrees
    {entered : Entered σ}
    (hSoft : Documented view world.soft)
    (hAgrees : Agrees view a x)
    (hFits : FormatFits lib a x)
    (hEntered :
      inflateEntered lib world x = some entered) :
    entered.Agrees view (a.entered lib x) := by
  unfold inflateEntered at hEntered
  by_cases hFirst :
      x.strm.totalIn = 0 ∧ x.w.more.allowSwitching
  swap
  · have hNone : exchanges lib x = none := by
      unfold exchanges
      exact if_neg fun hAll => hFirst ⟨hAll.1, hAll.2.1⟩
    rw [if_neg hFirst] at hEntered
    cases hEntered
    unfold Asked.entered
    rw [hNone]
    exact hAgrees
  rw [if_pos hFirst] at hEntered
  by_cases hInput : x.strm.nextIn = []
  · have hNone : exchanges lib x = none := by
      unfold exchanges
      exact if_neg fun hAll => hAll.2.2 hInput
    rw [if_pos hInput] at hEntered
    cases hEntered
    unfold Asked.entered
    rw [hNone]
    exact Or.inr hAgrees
  have hSame : exchanges lib x = switchTarget lib x := by
    unfold exchanges
    exact if_pos ⟨hFirst.1, hFirst.2, hInput⟩
  rw [if_neg hInput, ← hSame] at hEntered
  unfold FormatFits at hFits
  unfold Asked.entered
  cases hImpl : exchanges lib x with
  | none =>
      rw [hImpl] at hEntered
      cases hEntered
      exact hAgrees
  | some impl =>
      rw [hImpl] at hEntered hFits
      have hFresh := hFits.2
      exact switchTo_agrees hSoft hAgrees hFits.1 hFresh
        hEntered

theorem inflateCall_agrees
    {fuel : Nat}
    {flush : Flush}
    (hSoft : Documented view world.soft)
    (hAgrees : Agrees view a x)
    (hFits : FormatFits lib a x)
    (hCall :
      inflateCall lib world fuel flush x = some (rc, x')) :
    x'.state = .null ∨
      Agrees view (a.entered lib x) x' := by
  unfold inflateCall at hCall
  rw [hAgrees.1.guarded] at hCall
  rcases Option.bind_eq_some_iff.mp hCall with
    ⟨entered, hEntered, hRest⟩
  have hThere :=
    inflateEntered_agrees hSoft hAgrees hFits hEntered
  cases entered with
  | exit rc' y =>
      cases hRest
      exact hThere
  | go y =>
      right
      rcases hThere with ⟨hHeld, hFollows⟩
      rcases Option.map_eq_some_iff.mp hRest with
        ⟨⟨rc', y'⟩, hSub, hEq⟩
      cases hEq
      have hCalled := callSub_called hHeld.owns hSub
      have hBelow :
          TracksBelow view (a.entered lib x) y' := by
        refine hCalled.tracks hFollows.below ?_ ?_
        · intro z s strm s' hSome hTracks
          unfold onHardware at hSome
          rcases Option.map_eq_some_iff.mp hSome with
            ⟨ret, hRound, hEq⟩
          cases hEq
          exact (hInflate_format hRound).tracks hTracks
        · intro z s strm s' hSome hTracks
          have hInflate := hSoft.inflate hSome
          exact ⟨hInflate.1.trans hTracks.1,
            fun hHead => hTracks.2 (hInflate.2 hHead)⟩
      have hHeld' :=
        hCalled.held hHeld.state hHeld.kept
      rcases hCalled.keeps with ⟨strm, sub, _, rfl⟩
      exact ⟨⟨hHeld'.state, hHeld'.kept, hHeld'.owns⟩,
        hFollows.first, hFollows.kept, hBelow⟩

------------------------------------------------------------
-- Runs
------------------------------------------------------------

theorem Agrees.offer
    (hAgrees : Agrees view a x)
    (args : WrapInflate) :
    Agrees view a (args.offer x) :=
  ⟨hAgrees.1.offer args, hAgrees.2.first, hAgrees.2.kept,
    hAgrees.2.below⟩

/- A call on a stream that agrees. -/
theorem wrapStep_agrees
    {l : WrapLabel σ}
    (hSoft : Documented view l.world.soft)
    (hAgrees : Agrees view a x)
    (hFits :
      ∀ args, l.op = .inflate args →
        FormatFits lib a (args.offer x))
    (hStep : wrapStep lib x l x') :
    x'.state = .null ∨ Agrees view (a.after lib l) x' := by
  rcases hStep with ⟨hBefore, fuel, hStep⟩
  have hHeld := hAgrees.1
  have hFollows := hAgrees.2
  unfold Asked.after
  cases hOp : l.op with
  | inflate args =>
      rw [hOp] at hStep
      rw [hBefore]
      exact inflateCall_agrees hSoft (hAgrees.offer args)
        (hFits args hOp) hStep
  | reset =>
      rw [hOp] at hStep
      exact Or.inr ⟨inflateReset_held hHeld hStep,
        inflateReset_follows hHeld hSoft hFollows hStep⟩
  | reset2 windowBits =>
      rw [hOp] at hStep
      exact Or.inr ⟨inflateReset2_held hHeld hStep,
        inflateReset2_follows hHeld hSoft hFollows hStep⟩
  | setDictionary dictionary =>
      rw [hOp] at hStep
      exact Or.inr ⟨inflateSetDictionary_held hHeld hStep,
        inflateSetDictionary_follows hHeld hSoft hFollows
          hStep⟩
  | getHeader head =>
      rw [hOp] at hStep
      exact Or.inr ⟨inflateGetHeader_held hHeld hStep,
        inflateGetHeader_follows hHeld hSoft hFollows rfl rfl
          rfl rfl (fun _ => rfl) (fun _ => rfl) hStep⟩

/- Every call of `inflate` in the run fits. -/
def TraceFits
    (lib : InflateLib)
    (windowBits : Int)
    (trace : List (WrapLabel σ)) : Prop :=
  ∀ past l rest args,
    trace = past ++ l :: rest → l.op = .inflate args →
      FormatFits lib (askedFor lib windowBits past)
        (args.offer l.before)

/- Hence the stream agrees behind every run. -/
theorem agrees_of_run
    {windowBits : Int}
    {trace : List (WrapLabel σ)}
    {x₀ : InflateWrap σ}
    (hStart : Agrees view (Asked.initial windowBits) x₀)
    (hRun : Run (wrapStep lib) x₀ trace x)
    (hSoft : ∀ l ∈ trace, Documented view l.world.soft)
    (hFits : TraceFits lib windowBits trace) :
    x.state = .null ∨
      Agrees view (askedFor lib windowBits trace) x := by
  induction hRun with
  | start => exact Or.inr hStart
  | @next trace x₁ x₂ l hRun hStep ih =>
      have hPast :=
        ih (fun l hMem =>
            hSoft l (List.mem_append_left _ hMem))
          (fun past l' rest args hSplit hOp =>
            hFits past l' (rest ++ [l]) args
              (by rw [hSplit]; simp) hOp)
      rcases hPast with hNull | hAgrees
      · rcases hStep with ⟨_, fuel, hCall⟩
        exact Or.inl (wrapOp_null hNull hCall)
      rw [askedFor_next]
      refine wrapStep_agrees (hSoft l (by simp)) hAgrees ?_
        hStep
      intro args hOp
      rw [← hStep.1]
      exact hFits trace l [] args rfl hOp

/-
  In a run in which every call of `inflate` fits, each of them
  gets to a state with the format that was asked for last, and
  with no header from before that.
-/
theorem format_in_effect
    {windowBits : Int}
    {world₀ : InflateWorld σ}
    {z : ZStream}
    {x₀ y : InflateWrap σ}
    {trace : List (WrapLabel σ)}
    {args : WrapInflate}
    (hInit :
      inflateInit2 lib world₀ windowBits z = (.ok, some x₀))
    (hRun : Run (wrapStep lib) x₀ trace x)
    (hSoft₀ : Documented view world₀.soft)
    (hSoft : ∀ l ∈ trace, Documented view l.world.soft)
    (hSoftNow : Documented view world.soft)
    (hFits : TraceFits lib windowBits trace)
    (hFitsNow :
      FormatFits lib (askedFor lib windowBits trace)
        (args.offer x))
    (hGo : Processes lib world (args.offer x) y) :
    ∃ sub,
      y.w.privData = .live sub ∧ sub.impl = y.w.impl ∧
        InEffect view (askedFor lib windowBits trace)
          sub := by
  have hStart : Agrees view (Asked.initial windowBits) x₀ :=
    ⟨inflateInit2_held hInit,
      inflateInit2_follows hSoft₀ hInit⟩
  rcases agrees_of_run hStart hRun hSoft hFits with
    hNull | hAgrees
  · exact nomatch hNull.symm.trans hGo.1
  generalize askedFor lib windowBits trace = a
    at hFitsNow hAgrees ⊢
  have hThere :
      Agrees view (a.entered lib (args.offer x)) y :=
    inflateEntered_agrees hSoftNow (hAgrees.offer args)
      hFitsNow hGo.2
  rcases hThere.2.below with ⟨sub, hPriv, hImpl, hTracks⟩
  have hKept :
      (a.entered lib (args.offer x)).bits = a.bits ∧
        (a.entered lib (args.offer x)).fresh = a.fresh := by
    unfold Asked.entered
    split <;> exact ⟨rfl, rfl⟩
  refine ⟨sub, hPriv, hImpl, ?_⟩
  cases sub with
  | sw s =>
      refine ⟨hTracks.1.trans hKept.1, fun hHead => ?_⟩
      exact hKept.2.symm.trans (hTracks.2 hHead)
  | hw s =>
      rcases hTracks with ⟨hBits, _, hBelow⟩
      rw [hKept.1] at hBits
      refine ⟨hBits, fun hGzip hHead => ?_⟩
      have hLarge : 16 ≤ a.bits :=
        gzip_bits (hGzip ▸ hBits)
      have hSome :=
        hBelow (Option.isSome_iff_ne_none.mpr hHead)
      unfold FormatFits at hFitsNow
      unfold Asked.entered at hSome
      split at hSome
      · rename_i hChange
        rw [if_pos hChange] at hFitsNow
        exact hFitsNow.2 hLarge hSome
      · rename_i hStay
        rw [if_neg hStay] at hFitsNow
        refine hFitsNow ?_ hLarge hSome
        rw [inflateEntered_same hStay hGo.2]
        exact hImpl.symm

end Steps

end Software

/- A software zlib by its window bits and its header. -/
abbrev FormatSoft := Int × Option GzedcHeader

def formatView : SoftView FormatSoft where
  windowBits s := s.1
  head s := s.2

def formatSoftware : Software FormatSoft where
  inflateInit2 windowBits z := (.ok, z, (windowBits, none))
  inflateReset z s := (.ok, z, (s.1, none))
  inflateReset2 windowBits z s :=
    if -15 ≤ windowBits ∧ windowBits ≤ 47 then
      (.ok, z, (windowBits, none))
    else (.streamError, z, s)
  inflateSetDictionary _ z s := (.ok, z, s)
  inflateGetDictionary _ _ := (.ok, [])
  inflateGetHeader head z s :=
    if 16 ≤ s.1 then
      (.ok, z, (s.1, some { head with done := false }))
    else (.streamError, z, s)
  inflate _ z s := (.ok, z, s)
  inflateEnd _ _ := .ok

theorem formatSoftware_documented :
    Documented formatView formatSoftware := by
  constructor
  · intro windowBits z strm s hInit
    cases hInit
    exact ⟨rfl, rfl⟩
  · intro z s rc strm s' hReset
    cases hReset
    exact ⟨rfl, fun hHead => absurd rfl hHead⟩
  · intro windowBits z s strm s' hReset
    unfold formatSoftware at hReset
    simp only at hReset
    split at hReset <;> cases hReset
    exact ⟨rfl, rfl⟩
  · intro windowBits z s rc strm s' hReset hBad
    unfold formatSoftware at hReset
    simp only at hReset
    split at hReset <;> cases hReset
    · exact absurd rfl hBad
    · exact ⟨rfl, rfl⟩
  · intro dictionary z s rc strm s' hSet
    cases hSet
    exact ⟨rfl, rfl⟩
  · intro head z s rc strm s' hGet
    unfold formatSoftware at hGet
    simp only at hGet
    split at hGet
    · rename_i hLarge
      cases hGet
      exact ⟨rfl, fun _ => ⟨hLarge, rfl⟩,
        fun hBad => absurd rfl hBad⟩
    · cases hGet
      exact ⟨rfl, nofun, fun _ => rfl⟩
  · intro flush z s rc strm s' hInflate
    cases hInflate
    exact ⟨rfl, id⟩

def formatWorld : InflateWorld FormatSoft where
  soft := formatSoftware
  hwInit := none
  card _ := ⟨fun _ _ => quietResp⟩

/- A header structure with room for nothing. -/
def noRoomHeader : GzedcHeader :=
  ⟨false, 0, 0, 0, none, 0, 0, none, 0, none, 0, true⟩

/-
  The software is set up with the window bits from before an
  `inflateReset2`, and the hardware fills a header from before
  it.
-/
theorem reset2_forgotten :
    Documented formatView formatSoftware ∧
    (∃ x₀ x y : InflateWrap FormatSoft,
      let trace : List (WrapLabel FormatSoft) :=
        [⟨x₀, formatWorld, .reset2 (-15), .ok⟩]
      inflateInit2 smallLib formatWorld 31
          ZStream.initial = (.ok, some x₀) ∧
        Run (wrapStep smallLib) x₀ trace x ∧
        Processes smallLib formatWorld (oneByte.offer x) y ∧
        y.w.privData = .live (.sw (31, none)) ∧
        ¬ InEffect formatView (askedFor smallLib 31 trace)
            (.sw (31, none))) ∧
    (∃ x₀ x₁ x y : InflateWrap FormatSoft,
      ∃ s : InflateHw,
      let lib := { smallLib with inflateThreshold := 0 }
      let trace : List (WrapLabel FormatSoft) :=
        [⟨x₀, formatWorld, .getHeader noRoomHeader, .ok⟩,
          ⟨x₁, formatWorld, .reset2 31, .ok⟩]
      inflateInit2 lib formatWorld 31
          ZStream.initial = (.ok, some x₀) ∧
        Run (wrapStep lib) x₀ trace x ∧
        Processes lib formatWorld (oneByte.offer x) y ∧
        y.w.privData = .live (.hw s) ∧
        ¬ InEffect formatView (askedFor lib 31 trace)
            (.hw s)) := by
  refine ⟨formatSoftware_documented, ?_, ?_⟩
  · refine ⟨_, _, _, rfl, Run.start.next ⟨rfl, 1, rfl⟩,
      ⟨rfl, rfl⟩, rfl, ?_⟩
    intro hEffect
    have hBits : (31 : Int) = -15 := hEffect.1
    exact absurd hBits (by decide)
  · refine ⟨_, _, _, _, _, rfl,
      (Run.start.next ⟨rfl, 1, rfl⟩).next ⟨rfl, 1, rfl⟩,
      ⟨rfl, rfl⟩, rfl, ?_⟩
    intro hEffect
    have hFresh : false = true := hEffect.2 rfl nofun
    exact nomatch hFresh

theorem format_in_effect_switched :
    ∃ x₀ x y : InflateWrap FormatSoft,
      let trace : List (WrapLabel FormatSoft) :=
        [⟨x₀, formatWorld, .getHeader noRoomHeader, .ok⟩]
      inflateInit2 smallLib formatWorld 31
          ZStream.initial = (.ok, some x₀) ∧
        Run (wrapStep smallLib) x₀ trace x ∧
        Processes smallLib formatWorld (oneByte.offer x) y ∧
        ∃ sub,
          y.w.privData = .live sub ∧
            sub.impl = y.w.impl ∧
            InEffect formatView (askedFor smallLib 31 trace)
              sub := by
  refine ⟨_, _, _, rfl, Run.start.next ⟨rfl, 1, rfl⟩,
    ⟨rfl, rfl⟩, ?_⟩
  have hSoft : Documented formatView formatWorld.soft :=
    formatSoftware_documented
  refine format_in_effect rfl
    (Run.start.next ⟨rfl, 1, rfl⟩) hSoft ?_ hSoft ?_ ?_
    (⟨rfl, rfl⟩ :
      Processes smallLib formatWorld (oneByte.offer _) _)
  · intro l hMem
    rcases List.mem_singleton.mp hMem with rfl
    exact hSoft
  · intro past l rest args hSplit hOp
    have hMem : l ∈ past ++ l :: rest := by simp
    rw [← hSplit] at hMem
    rcases List.mem_singleton.mp hMem with rfl
    cases hOp
  · exact ⟨rfl, fun _ _ => rfl⟩

end Wrapper
