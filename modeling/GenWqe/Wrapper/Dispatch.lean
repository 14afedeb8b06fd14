import GenWqe.Hardware.Stream

/-
  The wrapper's state and the state of one of two
  implementations behind it, the hardware and the software
  one; and the calls that are passed on to that of the two
  which is in use.

  Key definitions include:
    * `Impl`, `Sub`, `Priv`
    * `Internal`, `Wrap`, `Held`
    * `guarded`, `callSub`, `endSub`

  Main results:
    * `callSub_called`
    * `Held.guarded`
-/

------------------------------------------------------------
-- The Wrapper's State
------------------------------------------------------------

namespace Wrapper

open Zedc Hardware

/- `enum zlib_impl` -/
inductive Impl where
  | sw
  | hw
  deriving DecidableEq, Repr

/- A state of one of the two implementations. -/
inductive Sub (η σ : Type) where
  | hw (s : η)
  | sw (s : σ)

/- The implementation that a state belongs to. -/
def Sub.impl {η σ : Type} : Sub η σ → Impl
  | .hw _ => .hw
  | .sw _ => .sw

/- `priv_data`; what it points to may have been freed. -/
inductive Priv (η σ : Type) where
  | null
  | live (s : Sub η σ)
  | freed

/-
  `struct _internal_state` of the wrapper, whose remaining
  fields are those of `π`.
-/
structure Internal (π η σ : Type) where
  impl : Impl
  privData : Priv η σ
  more : π

/- `strm->state` when a call of the wrapper returned. -/
inductive StatePtr where
  | null
  | internal
  deriving DecidableEq, Repr

/-
  The caller's stream, what its `state` points to, and the
  wrapper's state, which may have been freed.
-/
structure Wrap (π η σ : Type) where
  strm : ZStream
  state : StatePtr
  w : Internal π η σ
  freed : Bool

section Calls

variable {π η σ : Type}

/- The sub-level state is live and belongs to `impl`. -/
def Internal.Owns (w : Internal π η σ) : Prop :=
  ∃ s, w.privData = .live s ∧ s.impl = w.impl

/- The stream has the wrapper's state, and a live one below. -/
structure Held (x : Wrap π η σ) : Prop where
  state : x.state = .internal
  kept : x.freed = false
  owns : x.w.Owns

------------------------------------------------------------
-- Calls of the Level Below
------------------------------------------------------------

/- What a call on the level below left behind. -/
def Wrap.below
    (x : Wrap π η σ) (strm : ZStream) (s : Sub η σ) :
    Wrap π η σ :=
  { x with
    strm := strm
    w := { x.w with privData := .live s } }

/- The remaining fields of the wrapper's state set. -/
def Wrap.keep
    (x : Wrap π η σ) (more : π) : Wrap π η σ :=
  { x with w := { x.w with more := more } }

/- The totals of the caller's stream begin anew. -/
def Wrap.zeroTotals (x : Wrap π η σ) : Wrap π η σ :=
  { x with
    strm := { x.strm with totalIn := 0, totalOut := 0 } }

/-
  A call on `w->priv_data`, of the hardware or the software
  function that `w->impl` selects. Without a state they return
  `Z_STREAM_ERROR`; none stands for a state that was freed, or
  is one of the other implementation.
-/
def callSub
    (onHw : ZStream → η → Option (Rc × ZStream × η))
    (onSw : ZStream → σ → Rc × ZStream × σ)
    (x : Wrap π η σ) : Option (Rc × Wrap π η σ) :=
  match x.w.impl, x.w.privData with
  | .hw, .live (.hw s) =>
      (onHw x.strm s).map fun (rc, strm, s) =>
        (rc, x.below strm (.hw s))
  | .sw, .live (.sw s) =>
      let (rc, strm, s) := onSw x.strm s
      some (rc, x.below strm (.sw s))
  | _, .null => some (.streamError, x)
  | _, _ => none

/-
  The guard of every function: a stream without a state is
  refused, and none stands for one that was freed.
-/
def guarded
    (f : Wrap π η σ → Option (Rc × Wrap π η σ))
    (x : Wrap π η σ) : Option (Rc × Wrap π η σ) :=
  match x.state with
  | .null => some (.streamError, x)
  | .internal => if x.freed then none else f x

/-
  `__inflateEnd` and `__deflateEnd`. The hardware frees its
  state; the software returns whether it has freed its own,
  too. The stream loses its state anyway.
-/
def endSub
    (onSw : ZStream → σ → Rc × Bool)
    (x : Wrap π η σ) : Option (Rc × Wrap π η σ) :=
  let free (x : Wrap π η σ) : Wrap π η σ :=
    { x with w := { x.w with privData := .freed } }
  let x := { x with state := .null }
  match x.w.impl, x.w.privData with
  | .hw, .live (.hw _) => some (.ok, free x)
  | .sw, .live (.sw s) =>
      let (rc, isFreed) := onSw x.strm s
      some (rc, if isFreed then free x else x)
  | _, .null => some (.streamError, x)
  | _, _ => none

/- `inflateEnd` and `deflateEnd` -/
def endWrap
    (onSw : ZStream → σ → Rc × Bool) :
    Wrap π η σ → Option (Rc × Wrap π η σ) :=
  guarded fun x =>
    (endSub onSw x).map fun (rc, x) =>
      (rc, { x with freed := true })

------------------------------------------------------------
-- What They Leave
------------------------------------------------------------

/- A call of the level below on a live state. -/
inductive CalledSub
    (onHw : ZStream → η → Option (Rc × ZStream × η))
    (onSw : ZStream → σ → Rc × ZStream × σ)
    (x : Wrap π η σ) : Rc → Wrap π η σ → Prop
  | hw
      {s s' : η} {rc : Rc} {strm : ZStream} :
      x.w.impl = .hw →
      x.w.privData = .live (.hw s) →
      onHw x.strm s = some (rc, strm, s') →
      CalledSub onHw onSw x rc (x.below strm (.hw s'))
  | sw
      {s s' : σ} {rc : Rc} {strm : ZStream} :
      x.w.impl = .sw →
      x.w.privData = .live (.sw s) →
      onSw x.strm s = (rc, strm, s') →
      CalledSub onHw onSw x rc (x.below strm (.sw s'))

theorem callSub_called
    {onHw : ZStream → η → Option (Rc × ZStream × η)}
    {onSw : ZStream → σ → Rc × ZStream × σ}
    {x x' : Wrap π η σ}
    {rc : Rc}
    (hOwns : x.w.Owns)
    (hCall : callSub onHw onSw x = some (rc, x')) :
    CalledSub onHw onSw x rc x' := by
  rcases hOwns with ⟨sub, hPriv, hImpl⟩
  unfold callSub at hCall
  cases sub with
  | hw s =>
      have hHw : x.w.impl = .hw := hImpl.symm
      rw [hPriv, hHw] at hCall
      simp only at hCall
      rcases Option.map_eq_some_iff.mp hCall with
        ⟨⟨rc', strm, s'⟩, hSome, hEq⟩
      cases hEq
      exact .hw hHw hPriv hSome
  | sw s =>
      have hSw : x.w.impl = .sw := hImpl.symm
      rw [hPriv, hSw] at hCall
      cases hCall
      exact .sw hSw hPriv rfl

/- The state stays live, and nothing else is touched. -/
theorem CalledSub.keeps
    {onHw : ZStream → η → Option (Rc × ZStream × η)}
    {onSw : ZStream → σ → Rc × ZStream × σ}
    {x x' : Wrap π η σ}
    {rc : Rc}
    (hCalled : CalledSub onHw onSw x rc x') :
    ∃ strm sub,
      sub.impl = x.w.impl ∧ x' = x.below strm sub := by
  cases hCalled with
  | hw hImpl _ _ => exact ⟨_, .hw _, hImpl.symm, rfl⟩
  | sw hImpl _ _ => exact ⟨_, .sw _, hImpl.symm, rfl⟩

theorem CalledSub.held
    {onHw : ZStream → η → Option (Rc × ZStream × η)}
    {onSw : ZStream → σ → Rc × ZStream × σ}
    {x x' : Wrap π η σ}
    {rc : Rc}
    (hCalled : CalledSub onHw onSw x rc x')
    (hState : x.state = .internal)
    (hKept : x.freed = false) : Held x' := by
  rcases hCalled.keeps with ⟨strm, sub, hImpl, rfl⟩
  exact ⟨hState, hKept, sub, rfl, hImpl⟩

theorem Held.guarded
    {x : Wrap π η σ}
    (hHeld : Held x)
    (f : Wrap π η σ → Option (Rc × Wrap π η σ)) :
    guarded f x = f x := by
  unfold Wrapper.guarded
  rw [hHeld.state, hHeld.kept]
  rfl

/- A stream that lost its state is refused. -/
theorem guarded_null
    {f : Wrap π η σ → Option (Rc × Wrap π η σ)}
    {x x' : Wrap π η σ}
    {rc : Rc}
    (hNull : x.state = .null)
    (hCall : guarded f x = some (rc, x')) :
    x'.state = .null := by
  unfold Wrapper.guarded at hCall
  rw [hNull] at hCall
  cases hCall
  exact hNull

/- The end takes the state away from the stream. -/
theorem endSub_spec
    {onSw : ZStream → σ → Rc × Bool}
    {x x' : Wrap π η σ}
    {rc : Rc}
    (hEnd : endSub onSw x = some (rc, x')) :
    ∃ priv,
      x' =
        { x with
          state := .null
          w := { x.w with privData := priv } } := by
  unfold endSub at hEnd
  simp only at hEnd
  split at hEnd
  · cases hEnd
    exact ⟨.freed, rfl⟩
  · cases hEnd
    split
    · exact ⟨.freed, rfl⟩
    · exact ⟨x.w.privData, rfl⟩
  · cases hEnd
    exact ⟨x.w.privData, rfl⟩
  · cases hEnd

theorem endWrap_spec
    {onSw : ZStream → σ → Rc × Bool}
    {x x' : Wrap π η σ}
    {rc : Rc}
    (hHeld : Held x)
    (hEnd : endWrap onSw x = some (rc, x')) :
    x'.state = .null ∧ x'.freed = true := by
  unfold endWrap at hEnd
  rw [hHeld.guarded] at hEnd
  rcases Option.map_eq_some_iff.mp hEnd with
    ⟨⟨rc', y⟩, hSub, hEq⟩
  cases hEq
  rcases endSub_spec hSub with ⟨priv, rfl⟩
  exact ⟨rfl, rfl⟩

end Calls

end Wrapper
