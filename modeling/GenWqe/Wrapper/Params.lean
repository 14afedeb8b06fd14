import GenWqe.Wrapper.Failure

/-
  The fallback of `deflateParams`, seen from the caller: what
  it has been given before and behind it, next to what the
  software guarantees of a stream of its own.

  Key definitions include:
    * `Told`, `toldStep`
    * `softStep`, `Guarantees`
    * `FallbackFits`

  Main results:
    * `tracked_of_run`
    * `softRun_of_run`
    * `fallback_guaranteed`
-/

------------------------------------------------------------
-- The Caller's Side
------------------------------------------------------------

namespace Wrapper

open Zedc Hardware Session

/-
  What a caller knows of its stream: the window bits it asked
  for, the dictionary and the GZIP header that were accepted,
  the input that was taken, and the output that was given.
-/
structure Told where
  windowBits : Int
  dictionary : Option (List UInt8)
  head : Option GzipHead
  input : List UInt8
  output : List UInt8

def Told.start (windowBits : Int) : Told :=
  ⟨windowBits, none, none, [], []⟩

/-
  A call with the streams in front of it and behind it. A
  reset begins a new stream with the same header; a header
  only matters to GZIP.
-/
def Told.after
    (op : DeflWrapOp)
    (rc : Rc)
    (z z' : ZStream)
    (t : Told) : Told :=
  match op with
  | .deflate args =>
      { t with
        input :=
          t.input ++
            args.nextIn.take
              (args.nextIn.length - z'.nextIn.length)
        output := t.output ++ z'.out.drop z.out.length }
  | .reset =>
      { t with dictionary := none, input := [], output := [] }
  | .setDictionary dictionary =>
      if rc = .ok then
        { t with dictionary := some dictionary }
      else t
  | .setHeader head =>
      if rc = .ok ∧ 16 ≤ t.windowBits then
        { t with head := head }
      else t
  | .params _ _ => t

section Params

variable {σ : Type}

/- A call on a stream, and what the caller knows then. -/
def toldStep
    (lib : DeflateLib)
    (a : DeflateWrap σ × Told)
    (l : DeflWrapLabel σ)
    (b : DeflateWrap σ × Told) : Prop :=
  deflWrapStep lib a.1 l b.1 ∧
    b.2 = a.2.after l.op l.rc a.1.strm b.1.strm

------------------------------------------------------------
-- The Software
------------------------------------------------------------

/- A stream of the software alone, and its caller. -/
structure SoftStream (σ : Type) where
  strm : ZStream
  s : σ
  told : Told

/- A call on it. -/
def DeflWrapOp.runSoft
    (soft : DeflSoftware σ)
    (z : ZStream)
    (s : σ) : DeflWrapOp → Rc × ZStream × σ
  | .deflate args =>
      soft.deflate args.flush
        (z.offer args.nextIn args.availOut) s
  | .reset => soft.deflateReset z s
  | .setDictionary dictionary =>
      soft.deflateSetDictionary dictionary z s
  | .setHeader head => soft.deflateSetHeader head z s
  | .params level strategy =>
      soft.deflateParams level strategy z s

def softStep
    (soft : DeflSoftware σ)
    (a : SoftStream σ)
    (l : DeflWrapOp × Rc)
    (b : SoftStream σ) : Prop :=
  l.1.runSoft soft a.strm a.s = (l.2, b.strm, b.s) ∧
    b.told = a.told.after l.1 l.2 a.strm b.strm

/-
  Whatever is done with a stream that the software has set up,
  what its caller knows of it is as `Valid` says: that the
  output is one stream in the format that was asked for, with
  the dictionary and the header, of the input that was taken.
-/
def Guarantees
    (soft : DeflSoftware σ) (Valid : Told → Prop) : Prop :=
  ∀ more z strm s trace y,
    soft.deflateInit2 more z = (.ok, strm, s) →
    Run (softStep soft)
        ⟨strm, s, Told.start more.windowBits⟩ trace y →
      Valid y.told

------------------------------------------------------------
-- The Wrapper with the Software
------------------------------------------------------------

/- The wrapper passes its calls on to this state. -/
structure SoftBelow (x : DeflateWrap σ) (s : σ) : Prop where
  state : x.state = .internal
  kept : x.freed = false
  impl : x.w.impl = .sw
  live : x.w.privData = .live (.sw s)

section Software

variable {lib : DeflateLib} {x x' : DeflateWrap σ}

theorem SoftBelow.held
    {s : σ}
    (hBelow : SoftBelow x s) : Held x :=
  ⟨hBelow.state, hBelow.kept, _, hBelow.live,
    hBelow.impl.symm⟩

/- A function that is passed on comes to that of the software. -/
theorem SoftBelow.passed
    {s : σ}
    {rc : Rc}
    {onHw : ZStream → DeflateHw →
      Option (Rc × ZStream × DeflateHw)}
    {onSw : ZStream → σ → Rc × ZStream × σ}
    (hBelow : SoftBelow x s)
    (hCall :
      guarded (callSub onHw onSw) x = some (rc, x')) :
    ∃ s', onSw x.strm s = (rc, x'.strm, s') ∧
      SoftBelow x' s' := by
  rw [hBelow.held.guarded] at hCall
  cases callSub_called hBelow.held.owns hCall with
  | hw hHw _ _ => exact nomatch hBelow.impl.symm.trans hHw
  | @sw s₀ s' _ strm hSw hLive hEq =>
      cases hBelow.live.symm.trans hLive
      exact ⟨s', hEq, hBelow.state, hBelow.kept, hSw, rfl⟩

/- Every call on the wrapper is one on the software. -/
theorem SoftBelow.step
    {s : σ}
    {l : DeflWrapLabel σ}
    (hBelow : SoftBelow x s)
    (hStep : deflWrapStep lib x l x') :
    ∃ s',
      l.op.runSoft l.world.soft x.strm s =
          (l.rc, x'.strm, s') ∧
        SoftBelow x' s' := by
  rcases hStep with ⟨_, hRun⟩
  cases hOp : l.op with
  | deflate args =>
      rw [hOp] at hRun
      have hOffered : SoftBelow (args.offer x) s :=
        ⟨hBelow.state, hBelow.kept, hBelow.impl,
          hBelow.live⟩
      exact hOffered.passed hRun
  | reset =>
      rw [hOp] at hRun
      exact hBelow.passed hRun
  | setDictionary dictionary =>
      rw [hOp] at hRun
      exact hBelow.passed hRun
  | setHeader head =>
      rw [hOp] at hRun
      exact hBelow.passed hRun
  | params level strategy =>
      rw [hOp] at hRun
      have hKeep :
          SoftBelow (withParams level strategy x) s :=
        ⟨hBelow.state, hBelow.kept, hBelow.impl,
          hBelow.live⟩
      have hParams :
          deflateParams lib l.world level strategy x =
            some (l.rc, x') := hRun
      unfold deflateParams at hParams
      rw [hBelow.held.guarded] at hParams
      simp only at hParams
      split at hParams
      · rename_i hHw
        exact nomatch hBelow.impl.symm.trans hHw
      · have hGuarded :=
          hKeep.held.guarded
            (callSub (fun _ _ => none)
              (l.world.soft.deflateParams level strategy))
        exact hKeep.passed (hGuarded.trans hParams)

/- And a run on the wrapper is one on the software. -/
theorem softRun_of_run
    {soft : DeflSoftware σ}
    {s : σ}
    {t : Told}
    {trace : List (DeflWrapLabel σ)}
    {b : DeflateWrap σ × Told}
    (hBelow : SoftBelow x s)
    (hSame : ∀ l ∈ trace, l.world.soft = soft)
    (hRun : Run (toldStep lib) (x, t) trace b) :
    ∃ s',
      SoftBelow b.1 s' ∧
        Run (softStep soft) ⟨x.strm, s, t⟩
          (trace.map fun l => (l.op, l.rc))
          ⟨b.1.strm, s', b.2⟩ := by
  induction hRun with
  | start => exact ⟨s, hBelow, Run.start⟩
  | @next trace b₁ b₂ l _ hStep ih =>
      rcases ih fun l hMem =>
          hSame l (List.mem_append_left _ hMem) with
        ⟨s₁, hBelow₁, hRun₁⟩
      rcases hBelow₁.step hStep.1 with
        ⟨s₂, hCall, hBelow₂⟩
      rw [hSame l (by simp)] at hCall
      rw [List.map_append]
      exact ⟨s₂, hBelow₂, hRun₁.next ⟨hCall, hStep.2⟩⟩

end Software

------------------------------------------------------------
-- The Hardware in Front of It
------------------------------------------------------------

section Hardware

variable {lib : DeflateLib} {x x' : DeflateWrap σ}
variable {windowBits : Int} {t : Told}

/-
  The window bits are those asked for, and the hardware has
  counted all input that was taken.
-/
structure Tracked
    (windowBits : Int)
    (x : DeflateWrap σ)
    (t : Told) : Prop where
  bits : x.w.more.windowBits = windowBits
  told : t.windowBits = windowBits
  taken :
    x.w.impl = .hw → t.input.length = x.strm.totalIn

/- Only calls of `deflate` and resets change the input. -/
theorem Tracked.passed
    {rc : Rc}
    {onHw : ZStream → DeflateHw →
      Option (Rc × ZStream × DeflateHw)}
    {onSw : ZStream → σ → Rc × ZStream × σ}
    {t' : Told}
    (hHeld : Held x)
    (hTracked : Tracked windowBits x t)
    (hCall :
      guarded (callSub onHw onSw) x = some (rc, x'))
    (hTold : t'.windowBits = t.windowBits)
    (hHw :
      ∀ {s s'},
        onHw x.strm s = some (rc, x'.strm, s') →
        t.input.length = x.strm.totalIn →
          t'.input.length = x'.strm.totalIn) :
    Tracked windowBits x' t' := by
  rw [hHeld.guarded] at hCall
  cases callSub_called hHeld.owns hCall with
  | hw hImpl hLive hSome =>
      exact ⟨hTracked.bits, hTold.trans hTracked.told,
        fun _ => hHw hSome (hTracked.taken hImpl)⟩
  | sw hImpl _ _ =>
      refine ⟨hTracked.bits, hTold.trans hTracked.told, ?_⟩
      intro hIs
      exact nomatch hImpl.symm.trans hIs

/- `h_deflate` counts what it takes. -/
theorem hDeflate_taken
    {flush : Flush}
    {card : Nat → DeflateEnv}
    {args : WrapDeflate}
    {z strm : ZStream}
    {s s' : DeflateHw}
    {rc : Rc}
    (hCall :
      onDeflateHw (hDeflate flush card)
          (z.offer args.nextIn args.availOut) s =
        some (rc, strm, s')) :
    strm.totalIn =
      z.totalIn +
        (args.nextIn.length - strm.nextIn.length) := by
  unfold onDeflateHw at hCall
  rcases Option.map_eq_some_iff.mp hCall with
    ⟨ret, hRet, hEq⟩
  cases hEq
  have hKept := hDeflate_kept (by exact rfl) hRet
  exact hKept.moves.input_eq.2.2

/- A hardware function that always returns. -/
theorem onDeflateHw_strm
    {f : HDeflate → Rc × HDeflate}
    {z strm : ZStream}
    {s s' : DeflateHw}
    {rc : Rc}
    (hCall :
      onDeflateHw (fun st => some (f st)) z s =
        some (rc, strm, s')) :
    strm = (f ⟨z, s, []⟩).2.strm := by
  unfold onDeflateHw at hCall
  cases hCall
  rfl

/- What does not touch the input is not told of it. -/
theorem Told.after_input
    {op : DeflWrapOp}
    {rc : Rc}
    {z z' : ZStream} :
    (t.after op rc z z').windowBits = t.windowBits ∧
      ((∀ args, op ≠ .deflate args) → op ≠ .reset →
        (t.after op rc z z').input = t.input) := by
  unfold Told.after
  cases op with
  | deflate args =>
      exact ⟨rfl, fun hNot => absurd rfl (hNot args)⟩
  | reset => exact ⟨rfl, fun _ hNot => absurd rfl hNot⟩
  | setDictionary dictionary =>
      simp only
      split <;> exact ⟨rfl, fun _ _ => rfl⟩
  | setHeader head =>
      simp only
      split <;> exact ⟨rfl, fun _ _ => rfl⟩
  | params level strategy => exact ⟨rfl, fun _ _ => rfl⟩

/- One try with the software. -/
theorem deflateInitTry_sw
    {world : DeflateWorld σ}
    (hSw : x.w.impl = .sw)
    (hTry : deflateInitTry lib world x = (.ok, x')) :
    ∃ z s,
      world.soft.deflateInit2 x.w.more z =
          (.ok, x'.strm, s) ∧
        x' = x.below x'.strm (.sw s) := by
  unfold deflateInitTry at hTry
  rw [hSw] at hTry
  generalize hInit :
    world.soft.deflateInit2 x.w.more x.strm = result at hTry
  rcases result with ⟨rc, strm, s⟩
  simp only at hTry
  split at hTry
  · rename_i hOk
    cases hTry
    exact ⟨x.strm, s, hInit, rfl⟩
  · rename_i hBad
    cases hTry
    exact absurd rfl hBad

/- Without compression both tries are made with it. -/
theorem deflateInitSub_zero
    {world : DeflateWorld σ}
    (hLevel : x.w.more.level = 0)
    (hInit : deflateInitSub lib world x = (.ok, x')) :
    ∃ z s,
      world.soft.deflateInit2 x.w.more z =
          (.ok, x'.strm, s) ∧
        x' = (toSoftware x).below x'.strm (.sw s) := by
  unfold deflateInitSub at hInit
  rw [if_pos hLevel] at hInit
  simp only at hInit
  generalize hFirst :
    deflateInitTry lib world (toSoftware x) = first at hInit
  rcases first with ⟨rc, y⟩
  simp only at hInit
  split at hInit
  · cases hInit
    exact deflateInitTry_sw rfl hFirst
  · rename_i hBad
    rcases deflateInitTry_spec hFirst with
      ⟨strm, _, hSame⟩
    rcases hSame hBad with rfl
    generalize hSecond :
      deflateInitTry lib world _ = second at hInit
    rcases second with ⟨rc₂, y₂⟩
    simp only at hInit
    split at hInit
    · cases hInit
      exact deflateInitTry_sw (by rfl) hSecond
    · rename_i hNot
      cases hInit
      exact absurd rfl hNot

/- One try with the hardware. -/
theorem deflateInitTry_total
    {world : DeflateWorld σ}
    (hHw : x.w.impl = .hw)
    (hTry : deflateInitTry lib world x = (.ok, x')) :
    x'.strm.totalIn = 0 := by
  unfold deflateInitTry hDeflateInit2_ at hTry
  rw [hHw] at hTry
  cases hWorld : world.hwInit with
  | some bad =>
      rw [hWorld] at hTry
      exact absurd (Prod.mk.inj hTry).1 bad.2
  | none =>
      rw [hWorld] at hTry
      unfold hDeflateInit2 at hTry
      cases hFormat : formatInit x.w.more.windowBits with
      | none =>
          rw [hFormat] at hTry
          cases hTry
      | some format =>
          rw [hFormat] at hTry
          cases hTry
          rfl

/- What the set-up leaves of the parameters and totals. -/
theorem deflateInitSub_more
    {world : DeflateWorld σ}
    (hInit : deflateInitSub lib world x = (.ok, x')) :
    x'.w.more = x.w.more ∧
      (x'.w.impl = .hw → x'.strm.totalIn = 0) := by
  have hMore : x'.w.more = x.w.more := by
    rcases deflateInitSub_spec hInit with
      ⟨strm, impl, hOk, _⟩
    rcases hOk rfl with ⟨sub, _, hEq⟩
    rw [hEq]
  refine ⟨hMore, fun hHw => ?_⟩
  have hImpl :
      ∀ {y y' : DeflateWrap σ},
        deflateInitTry lib world y = (.ok, y') →
          y'.w.impl = y.w.impl := by
    intro y y' hTry
    rcases deflateInitTry_spec hTry with ⟨strm, hOk, _⟩
    rcases hOk rfl with ⟨sub, _, hEq⟩
    rw [hEq]
    rfl
  unfold deflateInitSub at hInit
  simp only at hInit
  generalize hFirst :
    deflateInitTry lib world _ = first at hInit
  rcases first with ⟨rc, y⟩
  simp only at hInit
  split at hInit
  · cases hInit
    exact deflateInitTry_total
      ((hImpl hFirst).symm.trans hHw) hFirst
  · generalize hSecond :
      deflateInitTry lib world _ = second at hInit
    rcases second with ⟨rc₂, y₂⟩
    simp only at hInit
    split at hInit
    · cases hInit
      exact nomatch (hImpl hSecond).symm.trans hHw
    · cases hInit
      exact nomatch hHw

/-
  The branch that gives up the hardware comes to a stream that
  the software has set up with the parameters.
-/
theorem deflateFallback_soft
    {world : DeflateWorld σ}
    (hHeld : Held x)
    (hHw : x.w.impl = .hw)
    (hLevel : x.w.more.level = 0)
    (hCall :
      deflateFallback lib world x = some (.ok, x')) :
    ∃ z s,
      world.soft.deflateInit2 x.w.more z =
          (.ok, x'.strm, s) ∧
        x'.w.more = x.w.more ∧ SoftBelow x' s := by
  rcases hHeld.owns with ⟨sub, hPriv, hImpl⟩
  cases sub with
  | sw s => exact nomatch hImpl.trans hHw
  | hw s =>
      unfold deflateFallback deflateEndSub endSub at hCall
      simp only at hCall
      rw [hPriv, hHw] at hCall
      simp only [Option.map_some, ne_eq, not_true_eq_false,
        if_false] at hCall
      generalize hInit :
        deflateInitSub lib world _ = result at hCall
      rcases result with ⟨rc, y⟩
      cases hCall
      rcases deflateInitSub_zero (by exact hLevel) hInit
        with ⟨z, s', hSoft, hEq⟩
      refine ⟨z, s', hSoft, ?_, rfl, ?_, ?_, ?_⟩
      · show y.w.more = x.w.more
        rw [hEq]
        rfl
      · show y.freed = false
        rw [hEq]
        exact hHeld.kept
      · show y.w.impl = .sw
        rw [hEq]
        rfl
      · show y.w.privData = .live (.sw s')
        rw [hEq]
        rfl

/- A call on a stream that is tracked. -/
theorem toldStep_tracked
    {l : DeflWrapLabel σ}
    {t' : Told}
    (hHeld : Held x)
    (hTracked : Tracked windowBits x t)
    (hStep : toldStep lib (x, t) l (x', t')) :
    Tracked windowBits x' t' ∨ Dangling x' := by
  rcases hStep with ⟨⟨_, hRun⟩, hTold⟩
  simp only at hRun hTold
  have hAfter :=
    @Told.after_input t l.op l.rc x.strm x'.strm
  rw [← hTold] at hAfter
  cases hOp : l.op with
  | deflate args =>
      rw [hOp] at hRun hTold
      have hOffered : Held (args.offer x) :=
        ⟨hHeld.state, hHeld.kept, hHeld.owns⟩
      have hThere : Tracked windowBits (args.offer x) t :=
        ⟨hTracked.bits, hTracked.told, hTracked.taken⟩
      refine Or.inl (hThere.passed hOffered hRun hAfter.1 ?_)
      intro s s' hSome hTaken
      have hCount := hDeflate_taken hSome
      have hLess :
          args.nextIn.length - x'.strm.nextIn.length ≤
            args.nextIn.length := Nat.sub_le _ _
      rw [hTold, hCount]
      show
        (t.input ++
            args.nextIn.take
              (args.nextIn.length -
                x'.strm.nextIn.length)).length = _
      rw [List.length_append, List.length_take,
        Nat.min_eq_left hLess, hTaken]
      rfl
  | reset =>
      rw [hOp] at hRun hTold
      refine Or.inl (hTracked.passed hHeld hRun hAfter.1 ?_)
      intro s s' hSome _
      rw [hTold, onDeflateHw_strm hSome]
      rfl
  | setDictionary dictionary =>
      rw [hOp] at hRun hAfter
      refine Or.inl (hTracked.passed hHeld hRun hAfter.1 ?_)
      intro s s' hSome hTaken
      rw [hAfter.2 nofun nofun, onDeflateHw_strm hSome]
      exact hTaken
  | setHeader head =>
      rw [hOp] at hRun hAfter
      refine Or.inl (hTracked.passed hHeld hRun hAfter.1 ?_)
      intro s s' hSome hTaken
      rw [hAfter.2 nofun nofun, onDeflateHw_strm hSome]
      exact hTaken
  | params level strategy =>
      rw [hOp] at hRun hAfter
      have hSame := hAfter.2 nofun nofun
      have hParams :
          deflateParams lib l.world level strategy x =
            some (l.rc, x') := hRun
      have hHere : Tracked windowBits
          (withParams level strategy x) t' :=
        ⟨hTracked.bits, hAfter.1.trans hTracked.told,
          fun hHw => by
            rw [hSame]
            exact hTracked.taken hHw⟩
      have hKeep : Held (withParams level strategy x) :=
        ⟨hHeld.state, hHeld.kept, hHeld.owns⟩
      by_cases hFalls :
          x.w.impl = .hw ∧ x.strm.totalIn = 0 ∧ level = 0
      · rcases hFalls with ⟨hHw, hTotal, hLevel⟩
        rw [deflateParams_fallback hHeld hHw hTotal hLevel]
          at hParams
        by_cases hOk : l.rc = .ok
        · rw [hOk] at hParams
          rcases deflateFallback_soft hKeep hHw hLevel
            hParams with ⟨z, s, _, hMore, hBelow⟩
          left
          refine ⟨?_, hHere.told, fun hIs => ?_⟩
          · rw [hMore]
            exact hTracked.bits
          · exact nomatch hBelow.impl.symm.trans hIs
        · exact Or.inr
            ((deflateFallback_spec hKeep hHw hParams).2 hOk)
      · left
        unfold deflateParams at hParams
        rw [hHeld.guarded] at hParams
        simp only at hParams
        split at hParams
        · rename_i hHw
          split at hParams
          · rcases Prod.mk.inj (Option.some.inj hParams) with
              ⟨_, rfl⟩
            exact hHere
          · rename_i hNot
            have hBoth := not_or.mp hNot
            exact absurd
              ⟨hHw, not_not.mp hBoth.1, not_not.mp hBoth.2⟩
              hFalls
        · have hGuarded :=
            hKeep.guarded
              (callSub (fun _ _ => none)
                (l.world.soft.deflateParams level strategy))
          refine hHere.passed hKeep
            (hGuarded.trans hParams) rfl ?_
          intro s s' hSome
          cases hSome

/- So it is in every run, until `deflateParams` fails. -/
theorem tracked_of_run
    {trace : List (DeflWrapLabel σ)}
    {a b : DeflateWrap σ × Told}
    (hHeld : Held a.1)
    (hTracked : Tracked windowBits a.1 a.2)
    (hRun : Run (toldStep lib) a trace b) :
    (Held b.1 ∧ Tracked windowBits b.1 b.2) ∨
      Dangling b.1 := by
  refine hRun.preserves
    (fun b : DeflateWrap σ × Told =>
      (Held b.1 ∧ Tracked windowBits b.1 b.2) ∨
        Dangling b.1) (Or.inl ⟨hHeld, hTracked⟩) ?_
  rintro ⟨x, t⟩ l ⟨x', t'⟩ hBefore hStep
  rcases hBefore with ⟨hHeld, hTracked⟩ | hDangling
  swap
  · have hStuck :=
      @Dangling.stuck σ lib l.world x l.op hDangling
    exact nomatch hStuck.symm.trans hStep.1.2
  rcases deflWrapStep_held hHeld hStep.1 with
    hHeld' | hDangling'
  swap
  · exact Or.inr hDangling'
  exact (toldStep_tracked hHeld hTracked hStep).imp_left
    fun hTracked' => ⟨hHeld', hTracked'⟩

end Hardware

------------------------------------------------------------
-- The Fallback
------------------------------------------------------------

/-
  Nothing was given to the caller yet, and neither a dictionary
  nor a GZIP header was accepted.
-/
structure FallbackFits (t : Told) : Prop where
  output : t.output = []
  dictionary : t.dictionary = none
  head : t.head = none

theorem deflateInit2_tracked
    {lib : DeflateLib}
    {world : DeflateWorld σ}
    {more : DeflateMore}
    {z : ZStream}
    {x : DeflateWrap σ}
    (hInit :
      deflateInit2 lib world more z = (.ok, some x)) :
    Tracked more.windowBits x
      (Told.start more.windowBits) := by
  unfold deflateInit2 at hInit
  simp only at hInit
  generalize hSub :
    deflateInitSub lib world _ = result at hInit
  rcases result with ⟨rc, y⟩
  simp only at hInit
  split at hInit
  swap
  · cases hInit
  rename_i hOk
  subst hOk
  cases hInit
  have hBits := deflateInitSub_more hSub
  refine ⟨?_, rfl, fun hHw => ?_⟩
  · show y.w.more.windowBits = more.windowBits
    rw [hBits.1]
  · exact (hBits.2 hHw).symm

/-
  In a run in which `deflateParams` gives up the hardware while
  nothing was given out, set or registered, what the caller
  knows in the end is what the software guarantees of a stream
  of its own: all input taken before and behind it is in the
  one stream that was given out.
-/
theorem fallback_guaranteed
    {lib : DeflateLib}
    {world₀ world : DeflateWorld σ}
    {more : DeflateMore}
    {level strategy : Int}
    {z : ZStream}
    {x₀ x x' y : DeflateWrap σ}
    {t u : Told}
    {past later : List (DeflWrapLabel σ)}
    {Valid : Told → Prop}
    (hInit :
      deflateInit2 lib world₀ more z = (.ok, some x₀))
    (hPast :
      Run (toldStep lib)
        (x₀, Told.start more.windowBits) past (x, t))
    (hHw : x.w.impl = .hw)
    (hTotal : x.strm.totalIn = 0)
    (hLevel : level = 0)
    (hFits : FallbackFits t)
    (hParams :
      deflateParams lib world level strategy x =
        some (.ok, x'))
    (hLater : Run (toldStep lib) (x', t) later (y, u))
    (hSame : ∀ l ∈ later, l.world.soft = world.soft)
    (hSoft : Guarantees world.soft Valid) :
    Valid u := by
  rcases tracked_of_run (deflateInit2_held hInit)
    (deflateInit2_tracked hInit) hPast with
    ⟨hHeld, hTracked⟩ | hDangling
  swap
  · exact nomatch hDangling.impl.symm.trans hHw
  have hInput : t.input = [] := by
    have hTaken := hTracked.taken hHw
    rw [hTotal] at hTaken
    exact List.length_eq_zero_iff.mp hTaken
  have hStart : t = Told.start more.windowBits := by
    rcases hFits with ⟨hOutput, hDict, hHead⟩
    have hBits := hTracked.told
    cases t
    subst hInput hOutput hDict hHead hBits
    rfl
  have hKeep : Held (withParams level strategy x) :=
    ⟨hHeld.state, hHeld.kept, hHeld.owns⟩
  rw [deflateParams_fallback hHeld hHw hTotal hLevel]
    at hParams
  rcases deflateFallback_soft hKeep hHw hLevel hParams with
    ⟨z', s, hSet, _, hBelow⟩
  rcases softRun_of_run hBelow hSame hLater with
    ⟨s', _, hRun⟩
  rw [hStart, ← hTracked.bits] at hRun
  exact hSoft _ _ _ _ _ _ hSet hRun

end Params

/- What the GZIP stream of no data looks like in software. -/
def emptyGzip : List UInt8 :=
  [0x1f, 0x8b, 0x08, 0, 0, 0, 0, 0, 0x04, 0x03] ++
    [0x01, 0, 0, 0xff, 0xff] ++ [0, 0, 0, 0, 0, 0, 0, 0]

/-
  A software zlib that knows this stream only: it gives it out
  when it is told to finish, for a GZIP stream without input.
-/
def emptySoftware : DeflSoftware Bool where
  deflateInit2 more z :=
    (if more.windowBits = 31 then .ok else .memError,
      { z with totalIn := 0, totalOut := 0 }, false)
  deflateReset z _ :=
    (.ok, { z with totalIn := 0, totalOut := 0 }, false)
  deflateSetDictionary _ z s := (.streamError, z, s)
  deflateSetHeader _ z s := (.streamError, z, s)
  deflate flush z ended :=
    if ended then
      (if flush = .finish then .streamEnd else .streamError,
        z, ended)
    else if
        flush = .finish ∧ z.nextIn = [] ∧
          emptyGzip.length ≤ z.availOut then
      (.streamEnd, z.take emptyGzip, true)
    else (.bufError, z, ended)
  deflateParams _ _ z s := (.ok, z, s)
  deflateEnd _ _ := (.ok, true)

/- No output yet, or the one stream. -/
def EmptyStream (t : Told) : Prop :=
  t.input = [] ∧ (t.output = [] ∨ t.output = emptyGzip)

/- A call that touches neither input nor output. -/
theorem Told.after_offer
    (args : WrapDeflate)
    (rc : Rc)
    (z : ZStream)
    (t : Told) :
    t.after (.deflate args) rc z
        (z.offer args.nextIn args.availOut) = t := by
  unfold Told.after ZStream.offer
  simp

theorem emptySoftware_guarantees :
    Guarantees emptySoftware EmptyStream := by
  intro more z strm s trace y _ hRun
  have hBoth :=
    hRun.preserves
      (fun y : SoftStream Bool =>
        EmptyStream y.told ∧
          (y.s = false → y.told.output = []))
      ⟨⟨rfl, Or.inl rfl⟩, fun _ => rfl⟩ ?_
  · exact hBoth.1
  rintro ⟨z₁, s₁, t₁⟩ ⟨op, rc⟩ ⟨z₂, s₂, t₂⟩
    ⟨hValid, hNone⟩ ⟨hCall, hTold⟩
  simp only at hValid hNone hCall hTold ⊢
  cases op with
  | deflate args =>
      unfold DeflWrapOp.runSoft emptySoftware at hCall
      simp only at hCall
      split at hCall
      · cases hCall
        rw [hTold, Told.after_offer]
        exact ⟨hValid, hNone⟩
      · rename_i hOpen
        split at hCall
        · rename_i hFinish
          cases hCall
          have hOutput :=
            hNone (Bool.eq_false_iff.mpr hOpen)
          have hInput : args.nextIn = [] := hFinish.2.1
          rw [hTold]
          refine ⟨⟨?_, Or.inr ?_⟩, nofun⟩
          · show t₁.input ++ args.nextIn.take _ = []
            rw [hValid.1, hInput, List.take_nil]
            rfl
          · show
              t₁.output ++
                  (z₁.out ++ emptyGzip).drop z₁.out.length =
                emptyGzip
            rw [hOutput, List.drop_left]
            rfl
        · cases hCall
          rw [hTold, Told.after_offer]
          exact ⟨hValid, hNone⟩
  | reset =>
      rw [hTold]
      exact ⟨⟨rfl, Or.inl rfl⟩, fun _ => rfl⟩
  | setDictionary dictionary =>
      cases hCall
      rw [hTold]
      exact ⟨hValid, hNone⟩
  | setHeader head =>
      cases hCall
      rw [hTold]
      exact ⟨hValid, hNone⟩
  | params level strategy =>
      cases hCall
      rw [hTold]
      exact ⟨hValid, hNone⟩

def emptyWorld : DeflateWorld Bool where
  soft := emptySoftware
  hwInit := none
  card _ := ⟨fun _ req => echoResp req, 0⟩

/- A GZIP stream of the hardware. -/
def hwStream : DeflateWrap Bool :=
  ((deflateInit2 smallDeflLib emptyWorld ⟨6, 8, 31, 8, 0⟩
    ZStream.initial).2).get rfl

/- A call without input, which gives the header out. -/
def headerCall : WrapDeflate := ⟨[], 64, .noFlush⟩

/- The last call of a stream. -/
def lastCall : WrapDeflate := ⟨[], 64, .finish⟩

/- The stream behind it, -/
def headedStream : DeflateWrap Bool :=
  ((deflateCall emptyWorld .noFlush
    (headerCall.offer hwStream)).get rfl).2

/- behind the fallback, -/
def fallenStream : DeflateWrap Bool :=
  ((deflateParams smallDeflLib emptyWorld 0 0
    headedStream).get rfl).2

/- and behind the last call. -/
def endedStream : DeflateWrap Bool :=
  ((deflateCall emptyWorld .finish
    (lastCall.offer fallenStream)).get rfl).2

/- What the caller knows then. -/
def headedTold : Told :=
  (Told.start 31).after (.deflate headerCall) .ok
    hwStream.strm headedStream.strm

def endedTold : Told :=
  headedTold.after (.deflate lastCall) .streamEnd
    fallenStream.strm endedStream.strm

/-
  The header is given out, and given out once more by the
  software.
-/
theorem header_given_twice :
    Guarantees emptySoftware EmptyStream ∧
    deflateInit2 smallDeflLib emptyWorld ⟨6, 8, 31, 8, 0⟩
        ZStream.initial = (.ok, some hwStream) ∧
    Run (toldStep smallDeflLib) (hwStream, Told.start 31)
      [⟨hwStream, emptyWorld, .deflate headerCall, .ok⟩]
      (headedStream, headedTold) ∧
    deflateParams smallDeflLib emptyWorld 0 0 headedStream =
      some (.ok, fallenStream) ∧
    Run (toldStep smallDeflLib) (fallenStream, headedTold)
      [⟨fallenStream, emptyWorld, .deflate lastCall,
        .streamEnd⟩]
      (endedStream, endedTold) ∧
    endedTold.output.take 3 = [0x1f, 0x8b, 0x08] ∧
    endedTold.output.drop 10 = emptyGzip ∧
    ¬ EmptyStream endedTold := by
  refine ⟨emptySoftware_guarantees, rfl,
    Run.start.next ⟨⟨rfl, rfl⟩, rfl⟩, rfl,
    Run.start.next ⟨⟨rfl, rfl⟩, rfl⟩, ?_, ?_, ?_⟩
  · decide
  · decide
  · rintro ⟨_, hNone | hOne⟩
    · exact absurd hNone (by decide)
    · exact absurd hOne (by decide)

/- The same stream, given up before any call. -/
def freshFallen : DeflateWrap Bool :=
  ((deflateParams smallDeflLib emptyWorld 0 0
    hwStream).get rfl).2

def freshEnded : DeflateWrap Bool :=
  ((deflateCall emptyWorld .finish
    (lastCall.offer freshFallen)).get rfl).2

theorem fallback_guaranteed_fresh :
    EmptyStream
      ((Told.start 31).after (.deflate lastCall) .streamEnd
        freshFallen.strm freshEnded.strm) := by
  have hSame :
      ∀ l ∈ [(⟨freshFallen, emptyWorld, .deflate lastCall,
            .streamEnd⟩ : DeflWrapLabel Bool)],
        l.world.soft = emptyWorld.soft := by
    intro l hMem
    rcases List.mem_singleton.mp hMem with rfl
    rfl
  exact fallback_guaranteed
    (rfl : deflateInit2 smallDeflLib emptyWorld
      ⟨6, 8, 31, 8, 0⟩ ZStream.initial =
        (.ok, some hwStream))
    Run.start rfl rfl (rfl : (0 : Int) = 0) ⟨rfl, rfl, rfl⟩
    (rfl : deflateParams smallDeflLib emptyWorld 0 0
      hwStream = some (.ok, freshFallen))
    (Run.start.next ⟨⟨rfl, rfl⟩, rfl⟩ :
      Run (toldStep smallDeflLib) (freshFallen, Told.start 31)
        [⟨freshFallen, emptyWorld, .deflate lastCall,
          .streamEnd⟩] (freshEnded, _))
    hSame emptySoftware_guarantees

end Wrapper
