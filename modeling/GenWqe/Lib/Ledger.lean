import Mathlib.Tactic

/-
  What a program has acquired and not yet released. The ledger
  notes every release and every use of what is not held under
  that pointer, so that a program without such notes frees
  nothing twice and uses nothing that it has freed.

  A program is described by what it is given to own and by
  what it owns behind it, whatever else is owned.

  Key definitions include:
    * `Ledger`
    * `Ledger.acquire`, `Ledger.release`, `Ledger.use`
    * `Ledger.Holds`
    * `Ledger.Spec`, `Ledger.Clean`

  Main results:
    * `Ledger.Spec.bind`, `Ledger.Clean.bind`
    * `Ledger.clean_acquire`
    * `Ledger.clean_release`
    * `Ledger.spec_release_wrong`
    * `Ledger.clean_forM`
-/

------------------------------------------------------------
-- Ledgers
------------------------------------------------------------

/-
  The next pointer, what is held, by pointer and kind, and the
  pointers that were used or released wrongly.
-/
structure Ledger (κ : Type) where
  next : Nat
  live : List (Nat × κ)
  wrong : List Nat

namespace Ledger

variable {κ α β : Type}

/- Nothing was acquired yet. -/
def empty : Ledger κ := ⟨0, [], []⟩

/- A new pointer to something of the kind `k`. -/
def acquire (k : κ) : StateM (Ledger κ) Nat :=
  fun L =>
    (L.next,
      { L with
        next := L.next + 1, live := (L.next, k) :: L.live })

/- `p` is given back as one of the kind `k`. -/
def release [DecidableEq κ] (p : Nat) (k : κ) :
    StateM (Ledger κ) Unit :=
  fun L =>
    ((),
      if (p, k) ∈ L.live then
        { L with live := L.live.erase (p, k) }
      else { L with wrong := L.wrong ++ [p] })

/- What `p` points to is read or written. -/
def use (p : Nat) : StateM (Ledger κ) Unit :=
  fun L =>
    ((),
      if p ∈ L.live.map Prod.fst then L
      else { L with wrong := L.wrong ++ [p] })

/- Just `own` is held, each by a pointer of its own. -/
structure Holds
    (L : Ledger κ) (own : Multiset (Nat × κ)) : Prop where
  live : (L.live : Multiset (Nat × κ)) = own
  apart : (own.map Prod.fst).Nodup
  old : ∀ r ∈ own, r.1 < L.next

theorem holds_empty : (empty : Ledger κ).Holds 0 :=
  ⟨rfl, by simp, by simp⟩

/- Two things that are held have two pointers. -/
theorem Holds.kind_unique
    {L : Ledger κ}
    {own : Multiset (Nat × κ)}
    {p : Nat} {k k' : κ}
    (hHolds : L.Holds own)
    (hMem : (p, k) ∈ own)
    (hMem' : (p, k') ∈ own) : k = k' := by
  have hSame :=
    Multiset.inj_on_of_nodup_map hHolds.apart _ hMem _ hMem'
      rfl
  exact (Prod.mk.inj hSame).2

------------------------------------------------------------
-- Specifications
------------------------------------------------------------

/-
  Where `own` is held, `m` returns, and holds behind it, what
  `Q` says, with the pointers it has treated wrongly.
-/
def Spec
    (own : Multiset (Nat × κ))
    (m : StateM (Ledger κ) α)
    (Q : α → Multiset (Nat × κ) → List Nat → Prop) : Prop :=
  ∀ L : Ledger κ, L.Holds own →
    ∃ own' wrong,
      (m L).2.Holds own' ∧
        (m L).2.wrong = L.wrong ++ wrong ∧
        Q (m L).1 own' wrong

/- The same for a program that does nothing wrong. -/
def Clean
    (own : Multiset (Nat × κ))
    (m : StateM (Ledger κ) α)
    (P : α → Multiset (Nat × κ) → Prop) : Prop :=
  Spec own m (fun a own' wrong => wrong = [] ∧ P a own')

section Rules

variable {own : Multiset (Nat × κ)}
variable {m : StateM (Ledger κ) α}
variable {f : α → StateM (Ledger κ) β}
variable {P P' : α → Multiset (Nat × κ) → Prop}
variable {Q Q' : α → Multiset (Nat × κ) → List Nat → Prop}
variable {R : β → Multiset (Nat × κ) → List Nat → Prop}
variable {S : β → Multiset (Nat × κ) → Prop}

theorem Spec.mono
    (hSpec : Spec own m Q)
    (hImp : ∀ a own' wrong, Q a own' wrong → Q' a own' wrong) :
    Spec own m Q' := by
  intro L hHolds
  rcases hSpec L hHolds with ⟨own', wrong, hHolds', hWrong, hQ⟩
  exact ⟨own', wrong, hHolds', hWrong, hImp _ _ _ hQ⟩

theorem Spec.pure
    {a : α} (hQ : Q a own []) : Spec own (pure a) Q :=
  fun _ hHolds =>
    ⟨own, [], hHolds, (List.append_nil _).symm, hQ⟩

theorem Spec.bind
    (hFirst : Spec own m Q)
    (hNext :
      ∀ a own' wrong, Q a own' wrong →
        Spec own' (f a) (fun b own'' wrong' =>
          R b own'' (wrong ++ wrong'))) :
    Spec own (m >>= f) R := by
  intro L hHolds
  rcases hFirst L hHolds with
    ⟨own', wrong, hHolds', hWrong, hQ⟩
  rcases hNext _ _ _ hQ _ hHolds' with
    ⟨own'', wrong', hHolds'', hWrong', hR⟩
  refine ⟨own'', wrong ++ wrong', hHolds'', ?_, hR⟩
  rw [← List.append_assoc, ← hWrong]
  exact hWrong'

theorem Clean.mono
    (hClean : Clean own m P)
    (hImp : ∀ a own', P a own' → P' a own') :
    Clean own m P' :=
  Spec.mono hClean
    (fun _ _ _ hP => ⟨hP.1, hImp _ _ hP.2⟩)

/- What is held may be written in another way. -/
theorem Spec.of_eq
    {own₁ : Multiset (Nat × κ)}
    (hSame : own = own₁)
    (hSpec : Spec own₁ m Q) : Spec own m Q := by
  rw [hSame]
  exact hSpec

theorem Clean.of_eq
    {own₁ : Multiset (Nat × κ)}
    (hSame : own = own₁)
    (hClean : Clean own₁ m P) : Clean own m P :=
  Spec.of_eq hSame hClean

theorem Clean.pure
    {a : α} (hP : P a own) : Clean own (pure a) P :=
  Spec.pure ⟨rfl, hP⟩

/- What comes behind a clean part decides about the whole. -/
theorem Clean.spec_bind
    (hFirst : Clean own m P)
    (hNext : ∀ a own', P a own' → Spec own' (f a) R) :
    Spec own (m >>= f) R := by
  refine Spec.bind hFirst ?_
  rintro a own' _ ⟨rfl, hP⟩
  exact hNext a own' hP

theorem Clean.bind
    (hFirst : Clean own m P)
    (hNext : ∀ a own', P a own' → Clean own' (f a) S) :
    Clean own (m >>= f) S :=
  Clean.spec_bind hFirst hNext

/- A clean program behind a part that may do wrong. -/
theorem Spec.clean_bind
    (hFirst : Spec own m Q)
    (hNext :
      ∀ a own' wrong, Q a own' wrong →
        Clean own' (f a) (fun b own'' => R b own'' wrong)) :
    Spec own (m >>= f) R := by
  refine Spec.bind hFirst fun a own' wrong hQ => ?_
  refine Spec.mono (hNext a own' wrong hQ) ?_
  rintro b own'' _ ⟨rfl, hR⟩
  rw [List.append_nil]
  exact hR

/- A list of parts, each of which returns what it is given. -/
theorem clean_forM
    {ι : Type}
    {held : ι → Multiset (Nat × κ)}
    {f : ι → StateM (Ledger κ) PUnit}
    (hOne :
      ∀ i own,
        Clean (held i + own) (f i) (fun _ own' => own' = own))
    (l : List ι)
    (own : Multiset (Nat × κ)) :
    Clean ((l.map held).sum + own) (l.forM f)
      (fun _ own' => own' = own) := by
  induction l with
  | nil => exact Clean.pure (zero_add _)
  | cons i l ih =>
      rw [List.map_cons, List.sum_cons, add_assoc]
      refine (hOne i _).bind ?_
      rintro _ _ rfl
      exact ih

end Rules

------------------------------------------------------------
-- The Three Operations
------------------------------------------------------------

section Operations

variable {own : Multiset (Nat × κ)} {p : Nat} {k : κ}

theorem clean_acquire
    (own : Multiset (Nat × κ)) (k : κ) :
    Clean own (acquire k)
      (fun p own' => own' = {(p, k)} + own) := by
  intro L hHolds
  refine ⟨{(L.next, k)} + own, [], ⟨?_, ?_, ?_⟩,
    (List.append_nil _).symm, rfl, rfl⟩
  · rw [← hHolds.live]
    rfl
  · rw [Multiset.singleton_add, Multiset.map_cons,
      Multiset.nodup_cons]
    refine ⟨fun hMem => ?_, hHolds.apart⟩
    rcases Multiset.mem_map.mp hMem with ⟨r, hR, hSame⟩
    exact absurd (hHolds.old r hR) (by
      rw [hSame]
      exact Nat.lt_irrefl _)
  · intro r hMem
    rw [Multiset.singleton_add] at hMem
    rcases Multiset.mem_cons.mp hMem with rfl | hOld
    · exact Nat.lt_succ_self _
    · exact Nat.lt_succ_of_lt (hHolds.old r hOld)

theorem clean_release
    [DecidableEq κ]
    (own : Multiset (Nat × κ)) (p : Nat) (k : κ) :
    Clean ({(p, k)} + own) (release p k)
      (fun _ own' => own' = own) := by
  intro L hHolds
  have hLive := hHolds.live
  rw [Multiset.singleton_add] at hLive
  have hMem : (p, k) ∈ L.live := by
    rw [← Multiset.mem_coe, hLive]
    exact Multiset.mem_cons_self _ _
  refine ⟨own, [], ?_, ?_, rfl, rfl⟩
  · unfold release
    rw [if_pos hMem]
    refine ⟨?_, ?_, fun r hR => hHolds.old r ?_⟩
    · have hPerm := List.perm_cons_erase hMem
      rw [← Multiset.coe_eq_coe, hLive, ← Multiset.cons_coe]
        at hPerm
      exact ((Multiset.cons_inj_right _).mp hPerm).symm
    · have hApart := hHolds.apart
      rw [Multiset.singleton_add, Multiset.map_cons] at hApart
      exact (Multiset.nodup_cons.mp hApart).2
    · rw [Multiset.singleton_add]
      exact Multiset.mem_cons_of_mem hR
  · unfold release
    rw [if_pos hMem]
    exact (List.append_nil _).symm

/- Releasing something as another kind only makes a note. -/
theorem spec_release_wrong
    [DecidableEq κ]
    {k' : κ}
    (hMem : (p, k') ∈ own)
    (hOther : k ≠ k') :
    Spec own (release p k)
      (fun _ own' wrong => own' = own ∧ wrong = [p]) := by
  intro L hHolds
  have hNot : (p, k) ∉ L.live := by
    intro hHas
    rw [← Multiset.mem_coe, hHolds.live] at hHas
    exact hOther (hHolds.kind_unique hHas hMem)
  refine ⟨own, [p], ?_, ?_, rfl, rfl⟩
  · unfold release
    rw [if_neg hNot]
    exact ⟨hHolds.live, hHolds.apart, hHolds.old⟩
  · unfold release
    rw [if_neg hNot]

theorem clean_use (hMem : (p, k) ∈ own) :
    Clean own (use p) (fun _ own' => own' = own) := by
  intro L hHolds
  have hHas : p ∈ L.live.map Prod.fst := by
    rw [← hHolds.live, Multiset.mem_coe] at hMem
    exact List.mem_map_of_mem hMem
  refine ⟨own, [], ?_, ?_, rfl, rfl⟩
  · unfold use
    rw [if_pos hHas]
    exact hHolds
  · unfold use
    rw [if_pos hHas]
    exact (List.append_nil _).symm

end Operations

end Ledger
