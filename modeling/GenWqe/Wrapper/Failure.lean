import GenWqe.Wrapper.Deflate
import GenWqe.Wrapper.Live

/-
  A failure while `inflate` or `deflateParams` exchange the
  implementation: where it leaves a stream that can be used or
  has been ended, and where it does not.

  Key definitions include:
    * `SwitchStep`, `FailsAt`
    * `Clean`

  Main results:
    * `deflHeld_of_run`
    * `exit_clean_iff`
    * `failed_switch_clean_iff`
-/

------------------------------------------------------------
-- Failing Steps
------------------------------------------------------------

namespace Wrapper

open Zedc Hardware Session

/- The steps in which `inflate` exchanges a state. -/
inductive SwitchStep where
  | getDictionary
  | ending
  | initialising
  | header
  | setDictionary
  deriving DecidableEq, Repr

section Failures

variable {σ : Type}

/-
  A step of the exchange returns another code than `Z_OK`. The
  steps in front of it went well, save that nobody looks at the
  code of `inflateGetHeader`.
-/
inductive FailsAt
    (lib : InflateLib)
    (world : InflateWorld σ)
    (impl : Impl)
    (x : InflateWrap σ) : SwitchStep → Prop
  | getDictionary
      {rc : Rc} {dictionary : List UInt8} :
      inflateGetDictionary lib world x =
        some (rc, dictionary) →
      rc ≠ .ok →
      FailsAt lib world impl x .getDictionary
  | ending
      {rc : Rc} {dictionary : List UInt8}
      {x₁ : InflateWrap σ} :
      inflateGetDictionary lib world x =
        some (.ok, dictionary) →
      dictionary.length ≤ zlibMaxDictLen →
      inflateEndSub world x = some (rc, x₁) →
      rc ≠ .ok →
      FailsAt lib world impl x .ending
  | initialising
      {rc : Rc} {dictionary : List UInt8}
      {x₁ x₂ : InflateWrap σ} :
      inflateGetDictionary lib world x =
        some (.ok, dictionary) →
      dictionary.length ≤ zlibMaxDictLen →
      inflateEndSub world x = some (.ok, x₁) →
      inflateInitSub lib world
          { x₁ with w := { x₁.w with impl := impl } } =
        (rc, x₂) →
      rc ≠ .ok →
      FailsAt lib world impl x .initialising
  | header
      {rc : Rc} {dictionary : List UInt8}
      {x₁ x₂ x₃ : InflateWrap σ} {head : GzedcHeader} :
      inflateGetDictionary lib world x =
        some (.ok, dictionary) →
      dictionary.length ≤ zlibMaxDictLen →
      inflateEndSub world x = some (.ok, x₁) →
      inflateInitSub lib world
          { x₁ with w := { x₁.w with impl := impl } } =
        (.ok, x₂) →
      x₂.w.more.gzhead = some head →
      inflateGetHeader world head
          { x₂ with state := .internal } = some (rc, x₃) →
      rc ≠ .ok →
      FailsAt lib world impl x .header
  | setDictionary
      {rc : Rc} {dictionary : List UInt8}
      {x₁ x₂ x₃ x₄ : InflateWrap σ} :
      inflateGetDictionary lib world x =
        some (.ok, dictionary) →
      dictionary.length ≤ zlibMaxDictLen →
      inflateEndSub world x = some (.ok, x₁) →
      inflateInitSub lib world
          { x₁ with w := { x₁.w with impl := impl } } =
        (.ok, x₂) →
      switchHeader world { x₂ with state := .internal } =
        some x₃ →
      dictionary.length ≠ 0 →
      inflateSetDictionary lib world dictionary x₃ =
        some (rc, x₄) →
      rc ≠ .ok →
      FailsAt lib world impl x .setDictionary

/-
  The stream has the wrapper's state with a live state of the
  implementation in use, or has been ended.
-/
def Clean {π η : Type} (x : Wrap π η σ) : Prop :=
  Held x ∨ (x.freed = true ∧ x.state = .null)

/- The exchange returns an error and leaves a clean stream. -/
def ExitsCleanly
    (entered : Option (Entered σ)) : Prop :=
  ∃ rc x,
    entered = some (.exit rc x) ∧ rc ≠ .ok ∧ Clean x

------------------------------------------------------------
-- The Exchange in Decompression
------------------------------------------------------------

section Inflate

variable {lib : InflateLib} {world : InflateWorld σ}
variable {impl : Impl} {x : InflateWrap σ}

/- A live state can be ended. -/
theorem Held.ends
    {π η : Type}
    {x : Wrap π η σ}
    (hHeld : Held x)
    (onSw : ZStream → σ → Rc × Bool) :
    ∃ rc x', endWrap onSw x = some (rc, x') := by
  rcases hHeld.owns with ⟨sub, hPriv, hImpl⟩
  unfold endWrap endSub
  rw [hHeld.guarded]
  simp only
  rw [hPriv, ← hImpl]
  cases sub with
  | hw s => exact ⟨_, _, rfl⟩
  | sw s => exact ⟨_, _, rfl⟩

/- An exchange up to the new initialisation. -/
theorem switchTo_initialised
    {dictionary : List UInt8}
    {x₁ x₂ : InflateWrap σ}
    (hGet :
      inflateGetDictionary lib world x =
        some (.ok, dictionary))
    (hLen : dictionary.length ≤ zlibMaxDictLen)
    (hEnd : inflateEndSub world x = some (.ok, x₁))
    (hInit :
      inflateInitSub lib world
          { x₁ with w := { x₁.w with impl := impl } } =
        (.ok, x₂)) :
    switchTo lib world impl x =
      switchRestore lib world dictionary x₂ := by
  unfold switchTo
  rw [hGet, Option.bind_some]
  simp only [ne_eq, not_true_eq_false, if_false]
  rw [if_neg (Nat.not_lt.mpr hLen), hEnd, Option.bind_some]
  simp only [not_true_eq_false, if_false]
  rw [hInit]
  rfl

/- A stream that has lost its state is not clean. -/
theorem not_clean_of_lost
    {π η : Type}
    {x : Wrap π η σ}
    (hNull : x.state = .null)
    (hKept : x.freed = false) : ¬ Clean x := by
  rintro (hHeld | ⟨hFreed, _⟩)
  · exact nomatch hNull.symm.trans hHeld.state
  · exact nomatch hKept.symm.trans hFreed

/-
  The exchange returns an error and leaves a clean stream where
  the dictionary cannot be read or not be set, and nowhere
  else.
-/
theorem exit_clean_iff
    (hHeld : Held x) :
    ExitsCleanly (switchTo lib world impl x) ↔
      FailsAt lib world impl x .getDictionary ∨
        FailsAt lib world impl x .setDictionary := by
  constructor
  · rintro ⟨rc, y, hExit, hBad, hClean⟩
    cases switchTo_switched hExit with
    | noDictionary hGet _ =>
        exact Or.inl (.getDictionary hGet hBad)
    | notEnded _ hEnd _ =>
        rcases endSub_spec hEnd with ⟨priv, rfl⟩
        exact absurd hClean
          (not_clean_of_lost rfl hHeld.kept)
    | notInitialised _ hEnd hInit hNot =>
        rcases endSub_spec hEnd with ⟨priv, rfl⟩
        rcases (inflateInitSub_spec hInit).2 hNot with
          ⟨strm, rfl⟩
        exact absurd hClean
          (not_clean_of_lost rfl hHeld.kept)
    | @initialised dictionary x₁ x₂ _ hGet hLen hEnd hInit
        hRestore =>
        right
        rcases Option.bind_eq_some_iff.mp hRestore with
          ⟨x₃, hHeader, hDict⟩
        unfold switchDictionary at hDict
        split at hDict
        · cases hDict
        · rename_i hSome
          rcases Option.bind_eq_some_iff.mp hDict with
            ⟨⟨rc', x₄⟩, hSet, hRest⟩
          simp only at hRest
          split at hRest
          · cases hRest
          · rename_i hNot
            exact .setDictionary hGet hLen hEnd hInit hHeader
              hSome hSet hNot
  · rintro (hGets | hSets)
    · cases hGets with
      | @getDictionary rc dictionary hGet hBad =>
          refine ⟨rc, x, ?_, hBad, Or.inl hHeld⟩
          unfold switchTo
          rw [hGet, Option.bind_some]
          simp only
          rw [if_pos hBad]
    · cases hSets with
      | @setDictionary rc dictionary x₁ x₂ x₃ x₄ hGet hLen
          hEnd hInit hHeader hSome hSet hBad =>
          have hHeld₃ :=
            switchHeader_held
              (Initialised.restored hHeld hEnd hInit) hHeader
          have hHeld₄ := inflateSetDictionary_held hHeld₃ hSet
          rcases hHeld₄.ends (softInflateEnd world) with
            ⟨rc', x₅, hEnded⟩
          refine ⟨rc, x₅, ?_, hBad, Or.inr ?_⟩
          · rw [switchTo_initialised hGet hLen hEnd hInit]
            unfold switchRestore switchDictionary
            rw [hHeader, Option.bind_some, if_neg hSome,
              hSet, Option.bind_some]
            simp only
            rw [if_neg hBad]
            unfold inflateEnd
            rw [hEnded]
            rfl
          · rcases endWrap_spec hHeld₄ hEnded with
              ⟨hNull, hFreed⟩
            exact ⟨hFreed, hNull⟩

/- A call of `inflate` that exchanges the implementation. -/
def Switches
    (lib : InflateLib)
    (impl : Impl)
    (x : InflateWrap σ) : Prop :=
  x.state = .internal ∧ x.strm.totalIn = 0 ∧
    x.w.more.allowSwitching = true ∧
    x.strm.nextIn ≠ [] ∧ switchTarget lib x = some impl

theorem Switches.entered
    (hSwitches : Switches lib impl x) :
    inflateEntered lib world x =
      switchTo lib world impl x := by
  rcases hSwitches with
    ⟨_, hTotal, hAllow, hInput, hTarget⟩
  unfold inflateEntered
  rw [if_pos ⟨hTotal, hAllow⟩, if_neg hInput, hTarget]

end Inflate

------------------------------------------------------------
-- The Exchange in Compression
------------------------------------------------------------

section Deflate

variable {lib : DeflateLib} {world : DeflateWorld σ}
variable {x x' : DeflateWrap σ} {rc : Rc}

/- What one try to initialise comes to. -/
theorem deflateInitTry_spec
    (hTry : deflateInitTry lib world x = (rc, x')) :
    ∃ strm,
      (rc = .ok →
        ∃ sub : Sub DeflateHw σ,
          sub.impl = x.w.impl ∧ x' = x.below strm sub) ∧
      (rc ≠ .ok → x' = { x with strm := strm }) := by
  unfold deflateInitTry at hTry
  cases hImpl : x.w.impl with
  | hw =>
      rw [hImpl] at hTry
      unfold hDeflateInit2_ at hTry
      cases hWorld : world.hwInit with
      | some bad =>
          rw [hWorld] at hTry
          cases hTry
          exact ⟨_, fun hOk => absurd hOk bad.2,
            fun _ => rfl⟩
      | none =>
          rw [hWorld] at hTry
          simp only at hTry
          cases hInit :
            hDeflateInit2 lib.config x.w.more.windowBits
              x.w.more.strategy
              { x.strm with totalIn := 0, totalOut := 0 } with
          | none =>
              rw [hInit] at hTry
              cases hTry
              refine ⟨_, fun hOk => ?_, fun _ => rfl⟩
              cases hOk
          | some st =>
              rw [hInit] at hTry
              cases hTry
              exact ⟨st.strm, fun _ => ⟨.hw st.s, rfl, rfl⟩,
                fun hBad => absurd rfl hBad⟩
  | sw =>
      rw [hImpl] at hTry
      generalize
        world.soft.deflateInit2 x.w.more x.strm =
          result at hTry
      rcases result with ⟨rc', strm, s⟩
      simp only at hTry
      by_cases hOk : rc' = .ok
      · rw [if_pos hOk] at hTry
        cases hTry
        exact ⟨strm, fun _ => ⟨.sw s, rfl, rfl⟩,
          fun hBad => absurd hOk hBad⟩
      · rw [if_neg hOk] at hTry
        cases hTry
        exact ⟨strm, fun hGood => absurd hGood hOk,
          fun _ => rfl⟩

/- What both tries come to. -/
theorem deflateInitSub_spec
    (hInit : deflateInitSub lib world x = (rc, x')) :
    ∃ strm impl,
      (rc = .ok →
        ∃ sub : Sub DeflateHw σ,
          sub.impl = impl ∧
          x' =
            { x with
              strm := strm
              w :=
                { x.w with
                  impl := impl
                  privData := .live sub } }) ∧
      (rc ≠ .ok →
        x' =
          { x with
            strm := strm
            w := { x.w with impl := .sw } }) := by
  unfold deflateInitSub at hInit
  simp only at hInit
  have hStart :
      ∃ impl,
        (if x.w.more.level = 0 then toSoftware x else x) =
          { x with w := { x.w with impl := impl } } := by
    split
    · exact ⟨.sw, rfl⟩
    · exact ⟨x.w.impl, rfl⟩
  rcases hStart with ⟨impl₀, hStart⟩
  rw [hStart] at hInit
  generalize hFirst :
    deflateInitTry lib world _ = first at hInit
  rcases first with ⟨rc₁, x₁⟩
  rcases deflateInitTry_spec hFirst with
    ⟨strm₁, hOk₁, hBad₁⟩
  simp only at hInit
  by_cases hGood : rc₁ = .ok
  · rw [if_pos hGood] at hInit
    cases hInit
    rcases hOk₁ hGood with ⟨sub, hImpl, rfl⟩
    exact ⟨strm₁, impl₀, fun _ => ⟨sub, hImpl, rfl⟩,
      fun hBad => absurd hGood hBad⟩
  rw [if_neg hGood] at hInit
  rcases hBad₁ hGood with rfl
  generalize hSecond :
    deflateInitTry lib world _ = second at hInit
  rcases second with ⟨rc₂, x₂⟩
  rcases deflateInitTry_spec hSecond with
    ⟨strm₂, hOk₂, hBad₂⟩
  simp only at hInit
  by_cases hLate : rc₂ = .ok
  · rw [if_pos hLate] at hInit
    cases hInit
    rcases hOk₂ hLate with ⟨sub, hImpl, rfl⟩
    exact ⟨strm₂, .sw, fun _ => ⟨sub, hImpl, rfl⟩,
      fun hBad => absurd hLate hBad⟩
  · rw [if_neg hLate] at hInit
    cases hInit
    rcases hBad₂ hLate with rfl
    exact ⟨strm₂, .sw, fun hOk => absurd hOk hLate,
      fun _ => rfl⟩

/- `deflateParams` has freed the state in use and returned. -/
structure Dangling (x : DeflateWrap σ) : Prop where
  state : x.state = .internal
  kept : x.freed = false
  impl : x.w.impl = .sw
  priv : x.w.privData = .freed

theorem Dangling.not_clean
    (hDangling : Dangling x) : ¬ Clean x := by
  rintro (hHeld | ⟨_, hNull⟩)
  · rcases hHeld.owns with ⟨sub, hLive, _⟩
    exact nomatch hDangling.priv.symm.trans hLive
  · exact nomatch hDangling.state.symm.trans hNull

/- The hardware stream given up, for a live one or for none. -/
theorem deflateFallback_spec
    (hHeld : Held x)
    (hHw : x.w.impl = .hw)
    (hCall : deflateFallback lib world x = some (rc, x')) :
    (rc = .ok → Held x') ∧ (rc ≠ .ok → Dangling x') := by
  rcases hHeld.owns with ⟨sub, hPriv, hImpl⟩
  cases sub with
  | sw s => exact nomatch hImpl.trans hHw
  | hw s =>
      unfold deflateFallback deflateEndSub endSub at hCall
      simp only at hCall
      rw [hPriv, hHw] at hCall
      simp only [Option.map_some, ne_eq, not_true_eq_false,
        if_false] at hCall
      generalize hInit :
        deflateInitSub lib world _ = result at hCall
      rcases result with ⟨rc', y⟩
      rcases deflateInitSub_spec hInit with
        ⟨strm, impl, hOk, hBad⟩
      cases hCall
      constructor
      · intro hGood
        rcases hOk hGood with ⟨sub, hSub, rfl⟩
        exact ⟨rfl, hHeld.kept, sub, rfl, hSub⟩
      · intro hNot
        rcases hBad hNot with rfl
        exact ⟨rfl, hHeld.kept, rfl, rfl⟩

/- A call passed on keeps a live state. -/
theorem passed_held
    {onHw : ZStream → DeflateHw →
      Option (Rc × ZStream × DeflateHw)}
    {onSw : ZStream → σ → Rc × ZStream × σ}
    (hHeld : Held x)
    (hCall :
      guarded (callSub onHw onSw) x = some (rc, x')) :
    Held x' := by
  rw [hHeld.guarded] at hCall
  exact (callSub_called hHeld.owns hCall).held hHeld.state
    hHeld.kept

theorem deflateParams_sound
    {level strategy : Int}
    (hHeld : Held x)
    (hCall :
      deflateParams lib world level strategy x =
        some (rc, x')) :
    Held x' ∨ Dangling x' := by
  unfold deflateParams at hCall
  rw [hHeld.guarded] at hCall
  simp only at hCall
  have hKeep :
      Held
        (x.keep
          { x.w.more with
            level := level
            strategy := strategy }) :=
    ⟨hHeld.state, hHeld.kept, hHeld.owns⟩
  split at hCall
  · rename_i hHw
    split at hCall
    · cases hCall
      exact Or.inl hKeep
    · have hSpec := deflateFallback_spec hKeep hHw hCall
      exact (em (rc = .ok)).imp hSpec.1 hSpec.2
  · exact Or.inl
      ((callSub_called (by exact hKeep.owns) hCall).held
        hKeep.state hKeep.kept)

/- With a freed state no call comes to an end. -/
theorem Dangling.stuck
    {op : DeflWrapOp}
    (hDangling : Dangling x) :
    op.run lib world x = none := by
  have hSub :
      ∀ (onHw : ZStream → DeflateHw →
            Option (Rc × ZStream × DeflateHw))
          (onSw : ZStream → σ → Rc × ZStream × σ)
          (y : DeflateWrap σ),
        y.w.impl = .sw → y.w.privData = .freed →
          callSub onHw onSw y = none := by
    intro onHw onSw y hImpl hPriv
    unfold callSub
    rw [hImpl, hPriv]
  have hGuard :
      ∀ (f : DeflateWrap σ → Option (Rc × DeflateWrap σ))
          (y : DeflateWrap σ),
        y.state = .internal → y.freed = false →
          f y = none → guarded f y = none := by
    intro f y hState hKept hNone
    unfold guarded
    rw [hState, hKept]
    exact hNone
  rcases hDangling with ⟨hState, hKept, hImpl, hPriv⟩
  cases op with
  | deflate args =>
      exact hGuard _ (args.offer x) hState hKept
        (hSub _ _ _ hImpl hPriv)
  | reset =>
      exact hGuard _ x hState hKept (hSub _ _ _ hImpl hPriv)
  | setDictionary dictionary =>
      exact hGuard _ x hState hKept (hSub _ _ _ hImpl hPriv)
  | setHeader head =>
      exact hGuard _ x hState hKept (hSub _ _ _ hImpl hPriv)
  | params level strategy =>
      unfold DeflWrapOp.run deflateParams
      refine hGuard _ x hState hKept ?_
      have hKeep :
          (x.keep
            { x.w.more with
              level := level
              strategy := strategy }).w.impl = .sw := hImpl
      simp only
      rw [hKeep]
      exact hSub _ _ _ hImpl hPriv

theorem deflateInit2_held
    {more : DeflateMore}
    {z : ZStream}
    (hInit :
      deflateInit2 lib world more z = (.ok, some x)) :
    Held x := by
  unfold deflateInit2 at hInit
  simp only at hInit
  generalize hSub :
    deflateInitSub lib world _ = result at hInit
  rcases result with ⟨rc, y⟩
  simp only at hInit
  by_cases hOk : rc = .ok
  · rw [if_pos hOk] at hInit
    cases hInit
    rcases deflateInitSub_spec hSub with
      ⟨strm, impl, hGood, _⟩
    rcases hGood hOk with ⟨sub, hImpl, rfl⟩
    exact ⟨rfl, rfl, sub, rfl, hImpl⟩
  · rw [if_neg hOk] at hInit
    cases hInit

/- A call keeps a live state, or `deflateParams` has failed. -/
theorem deflWrapStep_held
    {l : DeflWrapLabel σ}
    (hHeld : Held x)
    (hStep : deflWrapStep lib x l x') :
    Held x' ∨ Dangling x' := by
  rcases hStep with ⟨_, hStep⟩
  cases hOp : l.op with
  | deflate args =>
      rw [hOp] at hStep
      have hOffered : Held (args.offer x) :=
        ⟨hHeld.state, hHeld.kept, hHeld.owns⟩
      exact Or.inl (passed_held hOffered hStep)
  | reset =>
      rw [hOp] at hStep
      exact Or.inl (passed_held hHeld hStep)
  | setDictionary dictionary =>
      rw [hOp] at hStep
      exact Or.inl (passed_held hHeld hStep)
  | setHeader head =>
      rw [hOp] at hStep
      exact Or.inl (passed_held hHeld hStep)
  | params level strategy =>
      rw [hOp] at hStep
      exact deflateParams_sound hHeld hStep

/-
  In every run the state below is live and that of the
  implementation in use, until `deflateParams` fails.
-/
theorem deflHeld_of_run
    {more : DeflateMore}
    {trace : List (DeflWrapLabel σ)}
    (hRun : DeflWrapRun lib more trace x) :
    Held x ∨ Dangling x := by
  rcases hRun with ⟨world, z, x₀, hInit, hRun⟩
  refine Run.preserves
    (fun x : DeflateWrap σ => Held x ∨ Dangling x)
    (Or.inl (deflateInit2_held hInit)) ?_ hRun
  intro x l x' hBefore hStep
  rcases hBefore with hHeld | hDangling
  · exact deflWrapStep_held hHeld hStep
  · exact nomatch hDangling.stuck.symm.trans hStep.2

/- The parameters that `deflateParams` stores. -/
def withParams
    (level strategy : Int) (x : DeflateWrap σ) :
    DeflateWrap σ :=
  x.keep { x.w.more with level := level, strategy := strategy }

/- A step of the fallback fails in a call of `deflateParams`. -/
inductive FallbackFails
    (lib : DeflateLib)
    (world : DeflateWorld σ)
    (level strategy : Int)
    (x : DeflateWrap σ) : Prop
  | ending
      {rc : Rc} {x₁ : DeflateWrap σ} :
      x.state = .internal →
      x.w.impl = .hw → x.strm.totalIn = 0 → level = 0 →
      deflateEndSub world (withParams level strategy x) =
        some (rc, x₁) →
      rc ≠ .ok →
      FallbackFails lib world level strategy x
  | initialising
      {rc : Rc} {x₁ x₂ : DeflateWrap σ} :
      x.state = .internal →
      x.w.impl = .hw → x.strm.totalIn = 0 → level = 0 →
      deflateEndSub world (withParams level strategy x) =
        some (.ok, x₁) →
      deflateInitSub lib world x₁.zeroTotals = (rc, x₂) →
      rc ≠ .ok →
      FallbackFails lib world level strategy x

/- A call that gives up the hardware stream. -/
theorem deflateParams_fallback
    {level strategy : Int}
    (hHeld : Held x)
    (hHw : x.w.impl = .hw)
    (hTotal : x.strm.totalIn = 0)
    (hLevel : level = 0) :
    deflateParams lib world level strategy x =
      deflateFallback lib world
        (withParams level strategy x) := by
  unfold deflateParams
  rw [hHeld.guarded]
  have hImpl :
      (x.keep
        { x.w.more with
          level := level
          strategy := strategy }).w.impl = .hw := hHw
  have hNot : ¬ (x.strm.totalIn ≠ 0 ∨ level ≠ 0) := by
    rintro (hSome | hOther)
    · exact hSome hTotal
    · exact hOther hLevel
  simp only
  rw [hImpl]
  exact if_neg hNot

/- Then the stream is left with the state that was freed. -/
theorem FallbackFails.dangling
    {level strategy : Int}
    (hHeld : Held x)
    (hFails : FallbackFails lib world level strategy x)
    (hCall :
      deflateParams lib world level strategy x =
        some (rc, x')) : Dangling x' := by
  have hKeep : Held (withParams level strategy x) :=
    ⟨hHeld.state, hHeld.kept, hHeld.owns⟩
  cases hFails with
  | ending _ hHw hTotal hLevel hEnd hBad =>
      rcases hKeep.owns with ⟨sub, hPriv, hSub⟩
      cases sub with
      | sw s => exact nomatch hSub.trans hHw
      | hw s =>
          have hImpl :
              (withParams level strategy x).w.impl = .hw :=
            hHw
          unfold deflateEndSub endSub at hEnd
          simp only at hEnd
          rw [hPriv, hImpl] at hEnd
          cases hEnd
          exact absurd rfl hBad
  | @initialising rc' x₁ x₂ _ hHw hTotal hLevel hEnd hInit
      hBad =>
      have hRun := hCall
      rw [deflateParams_fallback hHeld hHw hTotal hLevel]
        at hRun
      refine (deflateFallback_spec hKeep hHw hRun).2 ?_
      unfold deflateFallback at hRun
      rw [hEnd] at hRun
      simp only [Option.map_some, ne_eq, not_true_eq_false,
        if_false] at hRun
      rw [hInit] at hRun
      cases hRun
      exact hBad

end Deflate

/-
  Where a step of an exchange fails, the call returns an error
  and leaves a clean stream if `inflate` could not read or not
  set the dictionary, and otherwise it does not.
-/
theorem failed_switch_clean_iff :
    (∀ (lib : InflateLib)
        (windowBits : Int)
        (trace : List (WrapLabel σ))
        (x : InflateWrap σ)
        (world : InflateWorld σ)
        (args : WrapInflate)
        (impl : Impl)
        (step : SwitchStep),
      WrapRun lib windowBits trace x →
      Switches lib impl (args.offer x) →
      FailsAt lib world impl (args.offer x) step →
      (ExitsCleanly
          (inflateEntered lib world (args.offer x)) ↔
        FailsAt lib world impl (args.offer x)
            .getDictionary ∨
          FailsAt lib world impl (args.offer x)
            .setDictionary)) ∧
    (∀ (lib : DeflateLib)
        (more : DeflateMore)
        (trace : List (DeflWrapLabel σ))
        (x : DeflateWrap σ)
        (world : DeflateWorld σ)
        (level strategy : Int),
      DeflWrapRun lib more trace x →
      FallbackFails lib world level strategy x →
      ¬ ∃ rc x',
        deflateParams lib world level strategy x =
            some (rc, x') ∧
          rc ≠ .ok ∧ Clean x') := by
  constructor
  · intro lib windowBits trace x world args impl step hRun
      hSwitches _
    have hHeld : Held x := by
      rcases held_of_run hRun with hHeld | hNull
      · exact hHeld
      · exact nomatch hNull.symm.trans hSwitches.1
    rw [hSwitches.entered]
    exact exit_clean_iff (hHeld.offer args)
  · rintro lib more trace x world level strategy hRun hFails
      ⟨rc, x', hCall, _, hClean⟩
    rcases deflHeld_of_run hRun with hHeld | hDangling
    · exact (hFails.dangling hHeld hCall).not_clean hClean
    · have hStuck :=
        @Dangling.stuck σ lib world x
          (.params level strategy) hDangling
      exact nomatch hStuck.symm.trans hCall

end Failures

/-
  A software zlib that has its memory or not, and refuses a
  dictionary in front of a header.
-/
def smallSoftware (hasMemory : Bool) : Software Unit where
  inflateInit2 _ z :=
    (if hasMemory then .ok else .memError, z, ())
  inflateReset z s := (.ok, z, s)
  inflateReset2 _ z s := (.ok, z, s)
  inflateSetDictionary _ z s := (.streamError, z, s)
  inflateGetDictionary _ _ := (.ok, [])
  inflateGetHeader _ z s := (.ok, z, s)
  inflate _ z s := (.ok, z, s)
  inflateEnd _ _ := .ok

/- A card that is there, and that software. -/
def smallWorld (hasMemory : Bool) : InflateWorld Unit where
  soft := smallSoftware hasMemory
  hwInit := none
  card _ := ⟨fun _ _ => quietResp⟩

/- The hardware for 16 KiB and more. -/
def smallLib : InflateLib where
  inflateImpl := .hw
  inflateThreshold := 16 * 1024
  hasGetDictionary := true
  config := plainConfig
  checkDisabled := false

/- A stream as `inflateInit2_` leaves it. -/
def newStream (windowBits : Int) : InflateWrap Unit :=
  ((inflateInit2 smallLib (smallWorld true) windowBits
      ZStream.initial).2).getD
    { strm := ZStream.initial
      state := .null
      w :=
        { impl := .sw
          privData := .null
          more :=
            { allowSwitching := false
              windowBits := windowBits
              gzhead := none
              dictionary := fun _ => 0
              dictLength := 0 } }
      freed := true }

/- One byte of a GZIP header, too little for the hardware. -/
def oneByte : WrapInflate := ⟨[0x1f], 64, .noFlush⟩

theorem new_stream_lost :
    WrapRun smallLib 31 [] (newStream 31) ∧
    Switches smallLib .sw (oneByte.offer (newStream 31)) ∧
    ∃ x',
      inflateCall smallLib (smallWorld false) 1 .noFlush
          (oneByte.offer (newStream 31)) =
        some (.memError, x') ∧ ¬ Clean x' := by
  refine ⟨⟨smallWorld true, ZStream.initial, _, rfl,
    Run.start⟩, ⟨rfl, rfl, rfl, by decide, rfl⟩, ?_⟩
  exact ⟨_, rfl, not_clean_of_lost rfl rfl⟩

/- The stream with a dictionary of one byte. -/
def dictStream : InflateWrap Unit :=
  ((inflateSetDictionary smallLib (smallWorld true) [0x61]
      (newStream 31)).map Prod.snd).getD (newStream 31)

theorem dictStream_run :
    WrapRun smallLib 31
      [⟨newStream 31, smallWorld true,
        .setDictionary [0x61], .ok⟩] dictStream :=
  ⟨smallWorld true, ZStream.initial, _, rfl,
    Run.start.next ⟨rfl, 1, rfl⟩⟩

/- A software zlib for compression that has no memory. -/
def smallDeflSoftware : DeflSoftware Unit where
  deflateInit2 _ z := (.memError, z, ())
  deflateReset z s := (.ok, z, s)
  deflateSetDictionary _ z s := (.streamError, z, s)
  deflateSetHeader _ z s := (.ok, z, s)
  deflate _ z s := (.ok, z, s)
  deflateParams _ _ z s := (.ok, z, s)
  deflateEnd _ _ := (.ok, true)

def smallDeflWorld : DeflateWorld Unit where
  soft := smallDeflSoftware
  hwInit := none
  card _ := ⟨fun _ req => echoResp req, 0⟩

def smallDeflLib : DeflateLib where
  deflateImpl := .hw
  config :=
    { ibufTotal := 0
      pageSize := 4096
      dynHuffmanSupported := true
      flgCrossCheck := false
      flgSkipLastDict := false }

/- A stream as `deflateInit2_` leaves it. -/
def newDeflStream : DeflateWrap Unit :=
  ((deflateInit2 smallDeflLib smallDeflWorld
      ⟨6, 8, 31, 8, 0⟩ ZStream.initial).2).getD
    { strm := ZStream.initial
      state := .null
      w :=
        { impl := .sw
          privData := .null
          more := ⟨6, 8, 31, 8, 0⟩ }
      freed := true }

theorem failed_switch_clean_dict :
    ExitsCleanly
      (inflateEntered smallLib (smallWorld true)
        (oneByte.offer dictStream)) ∧
    ¬ ∃ rc x',
        deflateParams smallDeflLib smallDeflWorld 0 0
            newDeflStream = some (rc, x') ∧
          rc ≠ .ok ∧ Clean x' := by
  have hFails :
      FailsAt smallLib (smallWorld true) .sw
        (oneByte.offer dictStream) .setDictionary :=
    .setDictionary rfl (by decide) rfl rfl rfl (by decide)
      rfl (by decide)
  have hSwitches :
      Switches smallLib .sw (oneByte.offer dictStream) :=
    ⟨rfl, rfl, rfl, by decide, rfl⟩
  constructor
  · exact
      (failed_switch_clean_iff.1 smallLib 31 _ dictStream
        (smallWorld true) oneByte .sw .setDictionary
        dictStream_run hSwitches hFails).mpr (Or.inr hFails)
  · have hRun :
        DeflWrapRun smallDeflLib ⟨6, 8, 31, 8, 0⟩ []
          newDeflStream :=
      ⟨smallDeflWorld, ZStream.initial, _, rfl, Run.start⟩
    exact
      failed_switch_clean_iff.2 smallDeflLib
        ⟨6, 8, 31, 8, 0⟩ [] newDeflStream smallDeflWorld 0 0
        hRun
        (.initialising rfl rfl rfl rfl rfl rfl (by decide))

end Wrapper
