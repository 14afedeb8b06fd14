import GenWqe.Wrapper.Inflate

/-
  What every call of the wrapper leaves behind: a stream whose
  state below is live and belongs to the implementation in use,
  or one that lost its state.

  Key definitions include:
    * `Initialised`, `Switched`
    * `Entered.Sound`

  Main results:
    * `inflateInitSub_spec`
    * `switchTo_switched`
    * `held_of_run`
-/

------------------------------------------------------------
-- What the Parts Leave
------------------------------------------------------------

namespace Wrapper

open Zedc Hardware

variable {σ : Type}

/- A new state below, of the one or the other kind. -/
inductive Initialised
    (lib : InflateLib)
    (world : InflateWorld σ)
    (x : InflateWrap σ) : InflateWrap σ → Prop
  | hw
      {st : HInflate} :
      x.w.impl = .hw →
      world.hwInit = none →
      hInflateInit2 lib.config x.w.more.windowBits
          { x.strm with totalIn := 0, totalOut := 0 } =
        some st →
      Initialised lib world x (x.below st.strm (.hw st.s))
  | sw
      {z strm : ZStream} {s : σ} {allow : Bool} :
      world.soft.inflateInit2 x.w.more.windowBits z =
        (.ok, strm, s) →
      Initialised lib world x
        { x with
          strm := strm
          w :=
            { impl := .sw
              privData := .live (.sw s)
              more :=
                { x.w.more with allowSwitching := allow } } }

/- What one try comes to. -/
theorem inflateInitTry_spec
    {lib : InflateLib}
    {world : InflateWorld σ}
    {x x' : InflateWrap σ}
    {rc : Rc}
    (hTry : inflateInitTry lib world x = (rc, x')) :
    (rc = .ok → Initialised lib world x x') ∧
      (rc ≠ .ok → ∃ strm, x' = { x with strm := strm }) := by
  unfold inflateInitTry at hTry
  cases hImpl : x.w.impl with
  | hw =>
      rw [hImpl] at hTry
      unfold hInflateInit2_ at hTry
      cases hWorld : world.hwInit with
      | some bad =>
          rw [hWorld] at hTry
          cases hTry
          exact ⟨fun hOk => absurd hOk bad.2,
            fun _ => ⟨_, rfl⟩⟩
      | none =>
          rw [hWorld] at hTry
          simp only at hTry
          cases hInit :
            hInflateInit2 lib.config x.w.more.windowBits
              { x.strm with totalIn := 0, totalOut := 0 } with
          | none =>
              rw [hInit] at hTry
              cases hTry
              refine ⟨fun hOk => ?_, fun _ => ⟨_, rfl⟩⟩
              cases hOk
          | some st =>
              rw [hInit] at hTry
              cases hTry
              exact ⟨fun _ => .hw hImpl hWorld hInit,
                fun hBad => absurd rfl hBad⟩
  | sw =>
      rw [hImpl] at hTry
      generalize hInit :
        world.soft.inflateInit2 x.w.more.windowBits x.strm =
          result at hTry
      rcases result with ⟨rc', strm, s⟩
      simp only at hTry
      by_cases hOk : rc' = .ok
      · rw [if_pos hOk] at hTry
        cases hTry
        subst hOk
        refine ⟨fun _ => ?_, fun hBad => absurd rfl hBad⟩
        have hNew :=
          @Initialised.sw σ lib world x _ _ _
            x.w.more.allowSwitching hInit
        rw [← hImpl] at hNew
        exact hNew
      · rw [if_neg hOk] at hTry
        cases hTry
        exact ⟨fun hGood => absurd hGood hOk,
          fun _ => ⟨_, rfl⟩⟩

/- What both tries come to. -/
theorem inflateInitSub_spec
    {lib : InflateLib}
    {world : InflateWorld σ}
    {x x' : InflateWrap σ}
    {rc : Rc}
    (hInit : inflateInitSub lib world x = (rc, x')) :
    (rc = .ok → Initialised lib world x x') ∧
      (rc ≠ .ok →
        ∃ strm,
          x' =
            { x with
              strm := strm
              w :=
                { x.w with
                  impl := .sw
                  more :=
                    { x.w.more with
                      allowSwitching := false } } }) := by
  unfold inflateInitSub at hInit
  generalize hFirst :
    inflateInitTry lib world x = first at hInit
  rcases first with ⟨rc₁, x₁⟩
  rcases inflateInitTry_spec hFirst with ⟨hOk₁, hBad₁⟩
  simp only at hInit
  by_cases hGood : rc₁ = .ok
  · rw [if_pos hGood] at hInit
    cases hInit
    exact ⟨hOk₁, fun hBad => absurd hGood hBad⟩
  rw [if_neg hGood] at hInit
  rcases hBad₁ hGood with ⟨strm₁, rfl⟩
  generalize hSecond :
    inflateInitTry lib world _ = second at hInit
  rcases second with ⟨rc₂, x₂⟩
  rcases inflateInitTry_spec hSecond with ⟨hOk₂, hBad₂⟩
  simp only at hInit
  by_cases hLate : rc₂ = .ok
  · rw [if_pos hLate] at hInit
    cases hInit
    refine ⟨fun _ => ?_, fun hBad => absurd hLate hBad⟩
    cases hOk₂ hLate with
    | hw hImpl _ _ => exact nomatch hImpl
    | sw hSoft => exact .sw hSoft
  · rw [if_neg hLate] at hInit
    cases hInit
    rcases hBad₂ hLate with ⟨strm₂, rfl⟩
    exact ⟨fun hOk => absurd hOk hLate,
      fun _ => ⟨strm₂, rfl⟩⟩

theorem Initialised.keeps
    {lib : InflateLib}
    {world : InflateWorld σ}
    {x x' : InflateWrap σ}
    (hNew : Initialised lib world x x') :
    x'.state = x.state ∧ x'.freed = x.freed ∧
      x'.w.Owns ∧
      ∃ allow,
        x'.w.more =
          { x.w.more with allowSwitching := allow } := by
  cases hNew with
  | hw hImpl _ _ =>
      exact ⟨rfl, rfl, ⟨.hw _, rfl, hImpl.symm⟩, _, rfl⟩
  | sw _ =>
      exact ⟨rfl, rfl, ⟨.sw _, rfl, rfl⟩, _, rfl⟩

/- The functions that only pass a call on keep a live state. -/
theorem inflateReset_held
    {world : InflateWorld σ}
    {x x' : InflateWrap σ}
    {rc : Rc}
    (hHeld : Held x)
    (hCall : inflateReset world x = some (rc, x')) :
    Held x' := by
  unfold inflateReset at hCall
  rw [hHeld.guarded] at hCall
  rcases Option.map_eq_some_iff.mp hCall with
    ⟨⟨rc', y⟩, hSub, hEq⟩
  cases hEq
  have hBelow :=
    (callSub_called (by exact hHeld.owns) hSub).held
      hHeld.state hHeld.kept
  exact ⟨hBelow.state, hBelow.kept, hBelow.owns⟩

theorem inflateReset2_held
    {world : InflateWorld σ}
    {windowBits : Int}
    {x x' : InflateWrap σ}
    {rc : Rc}
    (hHeld : Held x)
    (hCall :
      inflateReset2 world windowBits x = some (rc, x')) :
    Held x' := by
  unfold inflateReset2 at hCall
  rw [hHeld.guarded] at hCall
  rcases Option.map_eq_some_iff.mp hCall with
    ⟨⟨rc', y⟩, hSub, hEq⟩
  cases hEq
  have hBelow :=
    (callSub_called (by exact hHeld.owns) hSub).held
      hHeld.state hHeld.kept
  exact ⟨hBelow.state, hBelow.kept, hBelow.owns⟩

/- The copy of a dictionary leaves the rest alone. -/
theorem cacheDictionary_keeps
    (lib : InflateLib)
    (dictionary : List UInt8)
    (x : InflateWrap σ) :
    ∃ copy len,
      cacheDictionary lib dictionary x =
        x.keep
          { x.w.more with
            dictionary := copy
            dictLength := len } := by
  unfold cacheDictionary
  split
  · exact ⟨x.w.more.dictionary, x.w.more.dictLength, rfl⟩
  · split
    · exact ⟨x.w.more.dictionary, x.w.more.dictLength, rfl⟩
    · exact ⟨_, _, rfl⟩

theorem inflateSetDictionary_held
    {lib : InflateLib}
    {world : InflateWorld σ}
    {dictionary : List UInt8}
    {x x' : InflateWrap σ}
    {rc : Rc}
    (hHeld : Held x)
    (hCall :
      inflateSetDictionary lib world dictionary x =
        some (rc, x')) :
    Held x' := by
  unfold inflateSetDictionary at hCall
  rw [hHeld.guarded] at hCall
  rcases Option.map_eq_some_iff.mp hCall with
    ⟨⟨rc', y⟩, hSub, hEq⟩
  cases hEq
  have hBelow :=
    (callSub_called hHeld.owns hSub).held hHeld.state
      hHeld.kept
  rcases cacheDictionary_keeps lib dictionary y with
    ⟨copy, len, hCopy⟩
  show Held (cacheDictionary lib dictionary y)
  rw [hCopy]
  exact ⟨hBelow.state, hBelow.kept, hBelow.owns⟩

theorem inflateGetHeader_held
    {world : InflateWorld σ}
    {head : GzedcHeader}
    {x x' : InflateWrap σ}
    {rc : Rc}
    (hHeld : Held x)
    (hCall : inflateGetHeader world head x = some (rc, x')) :
    Held x' := by
  unfold inflateGetHeader at hCall
  rw [hHeld.guarded] at hCall
  exact (callSub_called (by exact hHeld.owns) hCall).held
    hHeld.state hHeld.kept

------------------------------------------------------------
-- What a Switch Leaves
------------------------------------------------------------

/- The ways in which the exchange of a state comes out. -/
inductive Switched
    (lib : InflateLib)
    (world : InflateWorld σ)
    (impl : Impl)
    (x : InflateWrap σ) : Entered σ → Prop
  | noDictionary
      {rc : Rc} {dictionary : List UInt8} :
      inflateGetDictionary lib world x =
        some (rc, dictionary) →
      rc ≠ .ok →
      Switched lib world impl x (.exit rc x)
  | notEnded
      {rc : Rc} {dictionary : List UInt8}
      {x₁ : InflateWrap σ} :
      inflateGetDictionary lib world x =
        some (.ok, dictionary) →
      inflateEndSub world x = some (rc, x₁) →
      rc ≠ .ok →
      Switched lib world impl x (.exit rc x₁)
  | notInitialised
      {rc : Rc} {dictionary : List UInt8}
      {x₁ x₂ : InflateWrap σ} :
      inflateGetDictionary lib world x =
        some (.ok, dictionary) →
      inflateEndSub world x = some (.ok, x₁) →
      inflateInitSub lib world
          { x₁ with w := { x₁.w with impl := impl } } =
        (rc, x₂) →
      rc ≠ .ok →
      Switched lib world impl x (.exit rc x₂)
  | initialised
      {dictionary : List UInt8} {x₁ x₂ : InflateWrap σ}
      {entered : Entered σ} :
      inflateGetDictionary lib world x =
        some (.ok, dictionary) →
      dictionary.length ≤ zlibMaxDictLen →
      inflateEndSub world x = some (.ok, x₁) →
      inflateInitSub lib world
          { x₁ with w := { x₁.w with impl := impl } } =
        (.ok, x₂) →
      switchRestore lib world dictionary x₂ =
        some entered →
      Switched lib world impl x entered

theorem switchTo_switched
    {lib : InflateLib}
    {world : InflateWorld σ}
    {impl : Impl}
    {x : InflateWrap σ}
    {entered : Entered σ}
    (hSwitch : switchTo lib world impl x = some entered) :
    Switched lib world impl x entered := by
  unfold switchTo at hSwitch
  rcases Option.bind_eq_some_iff.mp hSwitch with
    ⟨⟨rc, dictionary⟩, hGet, hRest⟩
  simp only at hRest
  by_cases hOk : rc = .ok
  swap
  · rw [if_pos hOk] at hRest
    cases hRest
    exact .noDictionary hGet hOk
  subst hOk
  rw [if_neg (not_not_intro rfl)] at hRest
  by_cases hLong : dictionary.length > zlibMaxDictLen
  · rw [if_pos hLong] at hRest
    cases hRest
  rw [if_neg hLong] at hRest
  rcases Option.bind_eq_some_iff.mp hRest with
    ⟨⟨rc, x₁⟩, hEnd, hInit⟩
  simp only at hInit
  by_cases hOk : rc = .ok
  swap
  · rw [if_pos hOk] at hInit
    cases hInit
    exact .notEnded hGet hEnd hOk
  subst hOk
  rw [if_neg (not_not_intro rfl)] at hInit
  generalize hSub :
    inflateInitSub lib world
      { x₁ with w := { x₁.w with impl := impl } } =
        result at hInit
  rcases result with ⟨rc, x₂⟩
  simp only at hInit
  by_cases hOk : rc = .ok
  swap
  · rw [if_pos hOk] at hInit
    cases hInit
    exact .notInitialised hGet hEnd hSub hOk
  subst hOk
  rw [if_neg (not_not_intro rfl)] at hInit
  exact .initialised hGet (Nat.le_of_not_lt hLong) hEnd
    hSub hInit

/- The stream is live, or it has lost its state. -/
def Entered.Sound : Entered σ → Prop
  | .go x => Held x
  | .exit _ x => Held x ∨ x.state = .null

/- Behind the new initialisation there is a live state. -/
theorem Initialised.restored
    {lib : InflateLib}
    {world : InflateWorld σ}
    {impl : Impl}
    {x x₁ x₂ : InflateWrap σ}
    (hHeld : Held x)
    (hEnd : inflateEndSub world x = some (.ok, x₁))
    (hInit :
      inflateInitSub lib world
          { x₁ with w := { x₁.w with impl := impl } } =
        (.ok, x₂)) :
    Held { x₂ with state := .internal } := by
  rcases endSub_spec hEnd with ⟨priv, rfl⟩
  have hKeeps :=
    ((inflateInitSub_spec hInit).1 rfl).keeps
  exact ⟨rfl, hKeeps.2.1.trans hHeld.kept, hKeeps.2.2.1⟩

theorem switchHeader_held
    {world : InflateWorld σ}
    {x x' : InflateWrap σ}
    (hHeld : Held x)
    (hHeader : switchHeader world x = some x') :
    Held x' := by
  unfold switchHeader at hHeader
  cases hHead : x.w.more.gzhead with
  | none =>
      rw [hHead] at hHeader
      cases hHeader
      exact hHeld
  | some head =>
      rw [hHead] at hHeader
      rcases Option.map_eq_some_iff.mp hHeader with
        ⟨⟨rc, y⟩, hCall, hEq⟩
      cases hEq
      exact inflateGetHeader_held hHeld hCall

theorem switchDictionary_sound
    {lib : InflateLib}
    {world : InflateWorld σ}
    {dictionary : List UInt8}
    {x : InflateWrap σ}
    {entered : Entered σ}
    (hHeld : Held x)
    (hSwitch :
      switchDictionary lib world dictionary x =
        some entered) :
    entered.Sound := by
  unfold switchDictionary at hSwitch
  split at hSwitch
  · cases hSwitch
    exact hHeld
  · rcases Option.bind_eq_some_iff.mp hSwitch with
      ⟨⟨rc, y⟩, hSet, hRest⟩
    have hHeld' := inflateSetDictionary_held hHeld hSet
    simp only at hRest
    split at hRest
    · cases hRest
      exact hHeld'
    · rcases Option.map_eq_some_iff.mp hRest with
        ⟨⟨rc', x'⟩, hEnd, hEq⟩
      cases hEq
      exact Or.inr (endWrap_spec hHeld' hEnd).1

theorem switchTo_sound
    {lib : InflateLib}
    {world : InflateWorld σ}
    {impl : Impl}
    {x : InflateWrap σ}
    {entered : Entered σ}
    (hHeld : Held x)
    (hSwitch : switchTo lib world impl x = some entered) :
    entered.Sound := by
  cases switchTo_switched hSwitch with
  | noDictionary _ _ => exact Or.inl hHeld
  | notEnded _ hEnd _ =>
      rcases endSub_spec hEnd with ⟨priv, rfl⟩
      exact Or.inr rfl
  | notInitialised _ hEnd hInit hBad =>
      rcases endSub_spec hEnd with ⟨priv, rfl⟩
      rcases (inflateInitSub_spec hInit).2 hBad with
        ⟨strm, rfl⟩
      exact Or.inr rfl
  | initialised _ _ hEnd hInit hRestore =>
      have hNew := Initialised.restored hHeld hEnd hInit
      rcases Option.bind_eq_some_iff.mp hRestore with
        ⟨y, hHeader, hDict⟩
      exact switchDictionary_sound
        (switchHeader_held hNew hHeader) hDict

theorem inflateEntered_sound
    {lib : InflateLib}
    {world : InflateWorld σ}
    {x : InflateWrap σ}
    {entered : Entered σ}
    (hHeld : Held x)
    (hEntered :
      inflateEntered lib world x = some entered) :
    entered.Sound := by
  unfold inflateEntered at hEntered
  split at hEntered
  · split at hEntered
    · cases hEntered
      exact Or.inl hHeld
    · split at hEntered
      · cases hEntered
        exact hHeld
      · exact switchTo_sound hHeld hEntered
  · cases hEntered
    exact hHeld

/- A call of `inflate` leaves a live stream, or none. -/
theorem inflateCall_sound
    {lib : InflateLib}
    {world : InflateWorld σ}
    {fuel : Nat}
    {flush : Flush}
    {x x' : InflateWrap σ}
    {rc : Rc}
    (hHeld : Held x)
    (hCall :
      inflateCall lib world fuel flush x = some (rc, x')) :
    Held x' ∨ x'.state = .null := by
  unfold inflateCall at hCall
  rw [hHeld.guarded] at hCall
  rcases Option.bind_eq_some_iff.mp hCall with
    ⟨entered, hEntered, hRest⟩
  have hSound := inflateEntered_sound hHeld hEntered
  cases entered with
  | exit rc' y =>
      cases hRest
      exact hSound
  | go y =>
      left
      have hHeldY : Held y := hSound
      rcases Option.map_eq_some_iff.mp hRest with
        ⟨⟨rc', z⟩, hSub, hEq⟩
      cases hEq
      have hBelow :=
        (callSub_called hHeldY.owns hSub).held hHeldY.state
          hHeldY.kept
      exact ⟨hBelow.state, hBelow.kept, hBelow.owns⟩

------------------------------------------------------------
-- Runs
------------------------------------------------------------

theorem inflateInit2_held
    {lib : InflateLib}
    {world : InflateWorld σ}
    {windowBits : Int}
    {z : ZStream}
    {x : InflateWrap σ}
    (hInit :
      inflateInit2 lib world windowBits z = (.ok, some x)) :
    Held x := by
  unfold inflateInit2 at hInit
  simp only at hInit
  generalize hSub :
    inflateInitSub lib world _ = result at hInit
  rcases result with ⟨rc, y⟩
  simp only at hInit
  by_cases hOk : rc = .ok
  · rw [if_pos hOk] at hInit
    cases hInit
    have hKeeps :=
      ((inflateInitSub_spec hSub).1 hOk).keeps
    exact ⟨rfl, hKeeps.2.1, hKeeps.2.2.1⟩
  · rw [if_neg hOk] at hInit
    cases hInit

/- A stream that lost its state is refused. -/
theorem wrapOp_null
    {lib : InflateLib}
    {world : InflateWorld σ}
    {fuel : Nat}
    {op : WrapOp}
    {x x' : InflateWrap σ}
    {rc : Rc}
    (hNull : x.state = .null)
    (hRun : op.run lib world fuel x = some (rc, x')) :
    x'.state = .null := by
  cases op with
  | inflate args =>
      unfold WrapOp.run inflateCall at hRun
      exact guarded_null (by exact hNull) hRun
  | reset =>
      unfold WrapOp.run inflateReset at hRun
      exact guarded_null hNull hRun
  | reset2 windowBits =>
      unfold WrapOp.run inflateReset2 at hRun
      exact guarded_null hNull hRun
  | setDictionary dictionary =>
      unfold WrapOp.run inflateSetDictionary at hRun
      exact guarded_null hNull hRun
  | getHeader head =>
      unfold WrapOp.run inflateGetHeader at hRun
      exact guarded_null hNull hRun

theorem Held.offer
    {x : InflateWrap σ}
    (hHeld : Held x)
    (args : WrapInflate) : Held (args.offer x) :=
  ⟨hHeld.state, hHeld.kept, hHeld.owns⟩

/-
  In every run the stream has a live state of the
  implementation in use, or it has no state at all.
-/
theorem held_of_run
    {lib : InflateLib}
    {windowBits : Int}
    {trace : List (WrapLabel σ)}
    {x : InflateWrap σ}
    (hRun : WrapRun lib windowBits trace x) :
    Held x ∨ x.state = .null := by
  rcases hRun with ⟨world, z, x₀, hInit, hRun⟩
  refine Run.preserves
    (fun x : InflateWrap σ => Held x ∨ x.state = .null)
    (Or.inl (inflateInit2_held hInit)) ?_ hRun
  rintro x l x' hBefore ⟨_, fuel, hStep⟩
  rcases hBefore with hHeld | hNull
  swap
  · exact Or.inr (wrapOp_null hNull hStep)
  cases hOp : l.op with
  | inflate args =>
      rw [hOp] at hStep
      exact inflateCall_sound (hHeld.offer args) hStep
  | reset =>
      rw [hOp] at hStep
      exact Or.inl (inflateReset_held hHeld hStep)
  | reset2 windowBits =>
      rw [hOp] at hStep
      exact Or.inl (inflateReset2_held hHeld hStep)
  | setDictionary dictionary =>
      rw [hOp] at hStep
      exact Or.inl (inflateSetDictionary_held hHeld hStep)
  | getHeader head =>
      rw [hOp] at hStep
      exact Or.inl (inflateGetHeader_held hHeld hStep)

end Wrapper
