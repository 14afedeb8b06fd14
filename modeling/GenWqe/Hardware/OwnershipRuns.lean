import GenWqe.Hardware.Ownership
import GenWqe.Lib.Runs

/-
  The streams of the hardware library over runs of calls that
  set them up, copy them and end them, each with any of what
  it asks for refused.

  Key definitions include:
    * `HwSystem`, `HwOp`, `HwStep`
    * `HwSystem.Accounted`
    * `NoneAbandoned`

  Main results:
    * `HwSystem.Keeps.step`
    * `nothing_lost_iff`
    * `nothing_left_iff`
-/

------------------------------------------------------------
-- Calls
------------------------------------------------------------

namespace Lifecycle

open Ledger

/- The handles that are kept, and the streams there are. -/
structure HwSystem where
  ledger : Ledger Kind
  cards : Cards
  deflates : List HwStream
  inflates : List HwStream

def HwSystem.start : HwSystem := ⟨empty, fun _ => none, [], []⟩

/- A call, and the place of the stream that it is given. -/
inductive HwOp where
  | deflateInit (args : InitArgs) (env : InitEnv)
  | deflateCopy (i : Nat) (env : CopyEnv)
  | deflateEnd (i : Nat)
  | inflateInit (args : InitArgs) (env : InitEnv)
  | inflateEnd (i : Nat)

/- A call that may have made a stream has returned. -/
def HwSystem.addDeflate
    (sys : HwSystem) (r : StreamRet × Ledger Kind) :
    HwSystem where
  ledger := r.2
  cards := r.1.cards
  deflates := r.1.strm.toList ++ sys.deflates
  inflates := sys.inflates

def HwSystem.addInflate
    (sys : HwSystem) (r : StreamRet × Ledger Kind) :
    HwSystem where
  ledger := r.2
  cards := r.1.cards
  deflates := sys.deflates
  inflates := r.1.strm.toList ++ sys.inflates

/- A call, of a stream that was made and not yet ended. -/
inductive HwStep (cfg : HwConfig) :
    HwSystem → HwOp → HwSystem → Prop
  | deflateInit
      (sys : HwSystem) (args : InitArgs) (env : InitEnv) :
      HwStep cfg sys (.deflateInit args env)
        (sys.addDeflate
          (hDeflateInit2 cfg args env sys.cards sys.ledger))
  | deflateCopy
      {sys : HwSystem} {i : Nat} {s : HwStream}
      (env : CopyEnv)
      (hStream : sys.deflates[i]? = some s) :
      HwStep cfg sys (.deflateCopy i env)
        (sys.addDeflate
          (hDeflateCopy cfg env s sys.cards sys.ledger))
  | deflateEnd
      {sys : HwSystem} {i : Nat} {s : HwStream}
      (hStream : sys.deflates[i]? = some s) :
      HwStep cfg sys (.deflateEnd i)
        { sys with
          ledger := (hDeflateEnd cfg s sys.ledger).2
          deflates := sys.deflates.eraseIdx i }
  | inflateInit
      (sys : HwSystem) (args : InitArgs) (env : InitEnv) :
      HwStep cfg sys (.inflateInit args env)
        (sys.addInflate
          (hInflateInit2 cfg args env sys.cards sys.ledger))
  | inflateEnd
      {sys : HwSystem} {i : Nat} {s : HwStream}
      (hStream : sys.inflates[i]? = some s) :
      HwStep cfg sys (.inflateEnd i)
        { sys with
          ledger := (hInflateEnd cfg s sys.ledger).2
          inflates := sys.inflates.eraseIdx i }

/- Copies that have their workspace and are not completed. -/
def HwOp.Abandons
    (cfg : HwConfig) (sys : HwSystem) : HwOp → Prop
  | .deflateCopy i env =>
      ∃ s, sys.deflates[i]? = some s ∧
        Lifecycle.Abandons cfg s env
  | _ => False

theorem HwOp.abandons_copy
    {cfg : HwConfig} {sys : HwSystem} {env : CopyEnv}
    {i : Nat} {s : HwStream}
    (hStream : sys.deflates[i]? = some s) :
    HwOp.Abandons cfg sys (.deflateCopy i env) ↔
      Lifecycle.Abandons cfg s env := by
  constructor
  · rintro ⟨t, hT, hAbandons⟩
    cases hStream.symm.trans hT
    exact hAbandons
  · exact fun hAbandons => ⟨s, hStream, hAbandons⟩

/- No copy of a run was abandoned. -/
def NoneAbandoned
    (cfg : HwConfig) (trace : List HwOp) : Prop :=
  ∀ past op sys,
    past ++ [op] <+: trace →
      Run (HwStep cfg) HwSystem.start past sys →
        ¬ op.Abandons cfg sys

------------------------------------------------------------
-- One Call
------------------------------------------------------------

/- What streams hold. -/
def allHeld (cfg : HwConfig) (l : List HwStream) : Held :=
  (l.map (HwStream.held cfg)).sum

/- What belongs to a stream or to the table of handles. -/
def HwSystem.owned (cfg : HwConfig) (sys : HwSystem) : Held :=
  cardsHeld sys.cards +
    (allHeld cfg sys.deflates + allHeld cfg sys.inflates)

/-
  What is held is what the streams and the table own, with
  nothing owned twice; and nothing was used or returned that
  was not held.
-/
structure HwSystem.Accounted
    (cfg : HwConfig) (sys : HwSystem) : Prop where
  live : (sys.ledger.live : Held) = sys.owned cfg
  apart : ((sys.owned cfg).map Prod.fst).Nodup
  wrong : sys.ledger.wrong = []

/- The streams of a system, where `lost` has no owner. -/
structure HwSystem.Keeps
    (cfg : HwConfig) (lost : Held) (sys : HwSystem) : Prop
    where
  holds : sys.ledger.Holds (lost + sys.owned cfg)
  cards : CardsOk cfg sys.cards
  deflates : ∀ s ∈ sys.deflates, StreamOk cfg sys.cards s
  inflates :
    ∀ s ∈ sys.inflates,
      StreamOk cfg sys.cards s ∧ s.ibufBase = none

section Calls

variable {cfg : HwConfig} {lost more own' : Held}
variable {sys sys' : HwSystem} {op : HwOp}
variable {ret : StreamRet} {L : Ledger Kind}

theorem allHeld_add
    (strm : Option HwStream) (l : List HwStream) :
    allHeld cfg (strm.toList ++ l) =
      heldBy (HwStream.held cfg) strm + allHeld cfg l := by
  unfold allHeld
  cases strm with
  | none => exact (zero_add _).symm
  | some s => rfl

/- A stream's part of what all of them hold. -/
theorem allHeld_eraseIdx
    {l : List HwStream} {i : Nat} {s : HwStream}
    (hStream : l[i]? = some s) :
    allHeld cfg l =
      s.held cfg + allHeld cfg (l.eraseIdx i) := by
  rcases List.getElem?_eq_some_iff.mp hStream with ⟨hI, rfl⟩
  unfold allHeld
  rw [← ((List.getElem_cons_eraseIdx_perm hI).map
    (HwStream.held cfg)).sum_eq]
  rfl

/- What a system holds, the table in front. -/
theorem HwSystem.held_front
    (lost : Held) (sys : HwSystem) :
    lost + sys.owned cfg =
      cardsHeld sys.cards +
        (lost +
          (allHeld cfg sys.deflates +
            allHeld cfg sys.inflates)) :=
  add_left_comm _ _ _

/- A new stream belongs to the system. -/
theorem HwSystem.Keeps.addDeflate
    (hKeeps : sys.Keeps cfg lost)
    (hMade :
      Made cfg sys.cards
        (more +
          (lost +
            (allHeld cfg sys.deflates +
              allHeld cfg sys.inflates))) ret own')
    (hHolds : L.Holds own') :
    (sys.addDeflate (ret, L)).Keeps cfg (more + lost) := by
  refine ⟨?_, hMade.table, fun s hS => ?_, fun s hS => ?_⟩
  · have hOwned :
        more + lost + (sys.addDeflate (ret, L)).owned cfg =
          own' := by
      rw [hMade.held]
      unfold HwSystem.owned HwSystem.addDeflate
      simp only [allHeld_add]
      abel
    rw [hOwned]
    exact hHolds
  · rcases List.mem_append.mp hS with hNew | hOld
    · exact hMade.ok s (Option.mem_toList.mp hNew)
    · exact (hKeeps.deflates s hOld).kept hMade.kept
  · have hOld := hKeeps.inflates s hS
    exact ⟨hOld.1.kept hMade.kept, hOld.2⟩

theorem HwSystem.Keeps.addInflate
    (hKeeps : sys.Keeps cfg lost)
    (hMade :
      Made cfg sys.cards
        (lost +
          (allHeld cfg sys.deflates +
            allHeld cfg sys.inflates)) ret own')
    (hIbuf : ∀ s, ret.strm = some s → s.ibufBase = none)
    (hHolds : L.Holds own') :
    (sys.addInflate (ret, L)).Keeps cfg lost := by
  refine ⟨?_, hMade.table, fun s hS => ?_, fun s hS => ?_⟩
  · have hOwned :
        lost + (sys.addInflate (ret, L)).owned cfg =
          own' := by
      rw [hMade.held]
      unfold HwSystem.owned HwSystem.addInflate
      simp only [allHeld_add]
      abel
    rw [hOwned]
    exact hHolds
  · exact (hKeeps.deflates s hS).kept hMade.kept
  · rcases List.mem_append.mp hS with hNew | hOld
    · have hIs := Option.mem_toList.mp hNew
      exact ⟨hMade.ok s hIs, hIbuf s hIs⟩
    · have hWas := hKeeps.inflates s hOld
      exact ⟨hWas.1.kept hMade.kept, hWas.2⟩

/- A stream has gone, and what it held was returned. -/
theorem HwSystem.Keeps.endDeflate
    {i : Nat} {s : HwStream}
    (hKeeps : sys.Keeps cfg lost)
    (hStream : sys.deflates[i]? = some s) :
    ∃ L,
      (hDeflateEnd cfg s sys.ledger).2 = L ∧
        L.wrong = sys.ledger.wrong ∧
        HwSystem.Keeps cfg lost
          { sys with
            ledger := L
            deflates := sys.deflates.eraseIdx i } := by
  have hOk := hKeeps.deflates s (List.mem_of_getElem? hStream)
  have hOwned :
      lost + sys.owned cfg =
        s.held cfg +
          (lost +
            HwSystem.owned cfg
              { sys with
                deflates := sys.deflates.eraseIdx i }) := by
    unfold HwSystem.owned
    rw [allHeld_eraseIdx hStream]
    abel
  have hCards :
      cardsHeld sys.cards ≤
        lost +
          HwSystem.owned cfg
            { sys with
              deflates := sys.deflates.eraseIdx i } :=
    (Multiset.le_add_right _ _).trans
      (Multiset.le_add_left _ _)
  have hHolds := hKeeps.holds
  rw [hOwned] at hHolds
  rcases clean_hDeflateEnd hOk hCards _ hHolds with
    ⟨_, _, hHolds', hWrong, rfl, rfl⟩
  refine ⟨_, rfl, ?_, hHolds', hKeeps.cards,
    fun t hT => ?_, hKeeps.inflates⟩
  · rw [hWrong, List.append_nil]
  · exact hKeeps.deflates t (List.mem_of_mem_eraseIdx hT)

theorem HwSystem.Keeps.endInflate
    {i : Nat} {s : HwStream}
    (hKeeps : sys.Keeps cfg lost)
    (hStream : sys.inflates[i]? = some s) :
    ∃ L,
      (hInflateEnd cfg s sys.ledger).2 = L ∧
        L.wrong = sys.ledger.wrong ∧
        HwSystem.Keeps cfg lost
          { sys with
            ledger := L
            inflates := sys.inflates.eraseIdx i } := by
  have hOk := hKeeps.inflates s (List.mem_of_getElem? hStream)
  have hOwned :
      lost + sys.owned cfg =
        s.held cfg +
          (lost +
            HwSystem.owned cfg
              { sys with
                inflates := sys.inflates.eraseIdx i }) := by
    unfold HwSystem.owned
    rw [allHeld_eraseIdx hStream]
    abel
  have hCards :
      cardsHeld sys.cards ≤
        lost +
          HwSystem.owned cfg
            { sys with
              inflates := sys.inflates.eraseIdx i } :=
    (Multiset.le_add_right _ _).trans
      (Multiset.le_add_left _ _)
  have hHolds := hKeeps.holds
  rw [hOwned] at hHolds
  rcases clean_hInflateEnd hOk.1 hOk.2 hCards _ hHolds with
    ⟨_, _, hHolds', hWrong, rfl, rfl⟩
  refine ⟨_, rfl, ?_, hHolds', hKeeps.cards,
    hKeeps.deflates, fun t hT => ?_⟩
  · rw [hWrong, List.append_nil]
  · exact hKeeps.inflates t (List.mem_of_mem_eraseIdx hT)

/- A stream's handle is held with the streams. -/
theorem HwSystem.device_le
    {s : HwStream}
    (hOk : StreamOk cfg sys.cards s)
    (hMem : s ∈ sys.deflates) :
    s.device.held ≤
      cardsHeld sys.cards +
        (lost +
          (allHeld cfg sys.deflates +
            allHeld cfg sys.inflates)) := by
  have hHandle : ownHandle cfg s.device ≤ s.held cfg := by
    unfold HwStream.held
    exact (Multiset.le_add_right _ _).trans
      ((Multiset.le_add_left _ _).trans
        ((Multiset.le_add_left _ _).trans
          (Multiset.le_add_left _ _)))
  have hStream : s.held cfg ≤ allHeld cfg sys.deflates :=
    List.single_le_sum (fun _ _ => Multiset.zero_le _) _
      (List.mem_map_of_mem hMem)
  rw [add_comm]
  refine hOk.handle.held_le.trans (add_le_add ?_ le_rfl)
  exact (hHandle.trans hStream).trans
    ((Multiset.le_add_right _ _).trans
      (Multiset.le_add_left _ _))

/- What one call leaves, and that it loses only in a copy. -/
theorem HwSystem.Keeps.step
    (hKeeps : sys.Keeps cfg lost)
    (hStep : HwStep cfg sys op sys') :
    ∃ more wrong,
      sys'.Keeps cfg (more + lost) ∧
        sys'.ledger.wrong = sys.ledger.wrong ++ wrong ∧
        (more = 0 ↔ ¬ op.Abandons cfg sys) ∧
        (¬ op.Abandons cfg sys → wrong = []) := by
  have hHolds := hKeeps.holds
  rw [HwSystem.held_front] at hHolds
  cases hStep with
  | deflateInit args env =>
      rcases clean_hDeflateInit2 hKeeps.cards _ hHolds with
        ⟨own', wrong, hHolds', hWrong, hNone, hMade⟩
      rw [← zero_add lost] at hMade
      refine ⟨0, wrong, ?_, hWrong,
        iff_of_true rfl (fun h => h), fun _ => hNone⟩
      rw [add_assoc] at hMade
      exact hKeeps.addDeflate hMade hHolds'
  | @deflateCopy i s env hStream =>
      have hMem := List.mem_of_getElem? hStream
      have hOk := hKeeps.deflates s hMem
      rcases spec_hDeflateCopy hOk hKeeps.cards
          (HwSystem.device_le hOk hMem) _ hHolds with
        ⟨own', wrong, hHolds', hWrong, more, hMade, hMore,
          hNone⟩
      rw [HwOp.abandons_copy hStream]
      exact ⟨more, wrong, hKeeps.addDeflate hMade hHolds',
        hWrong, hMore, hNone⟩
  | deflateEnd hStream =>
      rcases hKeeps.endDeflate hStream with
        ⟨L, rfl, hWrong, hKeeps'⟩
      refine ⟨0, [], ?_, ?_, iff_of_true rfl (fun h => h),
        fun _ => rfl⟩
      · rw [zero_add]
        exact hKeeps'
      · rw [List.append_nil]
        exact hWrong
  | inflateInit args env =>
      rcases clean_hInflateInit2 hKeeps.cards _ hHolds with
        ⟨own', wrong, hHolds', hWrong, hNone, hMade, hIbuf⟩
      refine ⟨0, wrong, ?_, hWrong,
        iff_of_true rfl (fun h => h), fun _ => hNone⟩
      rw [zero_add]
      exact hKeeps.addInflate hMade hIbuf hHolds'
  | inflateEnd hStream =>
      rcases hKeeps.endInflate hStream with
        ⟨L, rfl, hWrong, hKeeps'⟩
      refine ⟨0, [], ?_, ?_, iff_of_true rfl (fun h => h),
        fun _ => rfl⟩
      · rw [zero_add]
        exact hKeeps'
      · rw [List.append_nil]
        exact hWrong

end Calls

------------------------------------------------------------
-- Runs
------------------------------------------------------------

section Runs

variable {cfg : HwConfig} {sys : HwSystem}
variable {trace : List HwOp}

theorem cardsHeld_empty : cardsHeld (fun _ => none) = 0 :=
  Finset.sum_eq_zero (fun _ _ => rfl)

theorem HwSystem.keeps_start :
    HwSystem.start.Keeps cfg 0 := by
  refine ⟨?_, ⟨fun _ _ => rfl, fun i z h => by cases h⟩,
    (fun s h => by cases h), fun s h => by cases h⟩
  have hNothing :
      0 + HwSystem.start.owned cfg = (0 : Held) := by
    unfold HwSystem.owned HwSystem.start
    rw [cardsHeld_empty]
    rfl
  rw [hNothing]
  exact holds_empty

theorem HwStep.unique
    (sys : HwSystem) (op : HwOp) (sys₁ sys₂ : HwSystem)
    (hStep₁ : HwStep cfg sys op sys₁)
    (hStep₂ : HwStep cfg sys op sys₂) : sys₁ = sys₂ := by
  cases hStep₁ with
  | deflateInit args env =>
      cases hStep₂
      rfl
  | inflateInit args env =>
      cases hStep₂
      rfl
  | deflateCopy env hStream =>
      cases hStep₂ with
      | deflateCopy _ hStream' =>
          cases hStream.symm.trans hStream'
          rfl
  | deflateEnd hStream =>
      cases hStep₂ with
      | deflateEnd hStream' =>
          cases hStream.symm.trans hStream'
          rfl
  | inflateEnd hStream =>
      cases hStep₂ with
      | inflateEnd hStream' =>
          cases hStream.symm.trans hStream'
          rfl

/- A run loses something exactly if a copy is abandoned. -/
theorem keeps_of_run
    (hRun : Run (HwStep cfg) HwSystem.start trace sys) :
    ∃ lost,
      sys.Keeps cfg lost ∧
        (lost = 0 ↔ NoneAbandoned cfg trace) ∧
        (NoneAbandoned cfg trace → sys.ledger.wrong = []) := by
  induction hRun with
  | start =>
      refine ⟨0, HwSystem.keeps_start, iff_of_true rfl ?_,
        fun _ => rfl⟩
      intro past op _ hPre
      have hNil := List.prefix_nil.mp hPre
      simp at hNil
  | @next trace sys sys' op hPast hNext ih =>
      rcases ih with ⟨lost, hKeeps, hLost, hWrong⟩
      rcases hKeeps.step hNext with
        ⟨more, wrong, hKeeps', hMore', hMore, hNone⟩
      have hBoth :
          NoneAbandoned cfg (trace ++ [op]) ↔
            NoneAbandoned cfg trace ∧
              ¬ op.Abandons cfg sys := by
        constructor
        · intro hAll
          refine ⟨fun past op' sys₁ hPre => ?_, ?_⟩
          · exact hAll past op' sys₁
              (hPre.trans (List.prefix_append _ _))
          · exact hAll trace op sys (List.prefix_refl _) hPast
        · rintro ⟨hBefore, hLast⟩
          exact Run.all_steps_next
            (fun sys op => ¬ HwOp.Abandons cfg sys op)
            HwStep.unique hPast hBefore hLast
      refine ⟨more + lost, hKeeps', ?_, fun hAll => ?_⟩
      · rw [hBoth, add_eq_zero, hLost, hMore, and_comm]
      · rcases hBoth.mp hAll with ⟨hBefore, hLast⟩
        rw [hMore', hWrong hBefore, hNone hLast]
        rfl

/-
  Behind any calls, the streams and the table own all that is
  held, each its own part, and nothing was treated wrongly,
  exactly if no copy has been abandoned.
-/
theorem nothing_lost_iff
    (hRun : Run (HwStep cfg) HwSystem.start trace sys) :
    sys.Accounted cfg ↔ NoneAbandoned cfg trace := by
  rcases keeps_of_run hRun with ⟨lost, hKeeps, hLost, hWrong⟩
  have hLive := hKeeps.holds.live
  constructor
  · intro hAccounted
    rw [hAccounted.live] at hLive
    exact hLost.mp (right_eq_add.mp hLive)
  · intro hNone
    have hHolds := hKeeps.holds
    rw [hLost.mpr hNone, zero_add] at hHolds
    exact ⟨hHolds.live, hHolds.apart, hWrong hNone⟩

/- Driver memory, and handles that are kept. -/
def flatConfig : HwConfig where
  cacheHandles := true
  flatDeflate := true
  flatInflate := true
  ibufTotal := 64
  obufTotal := 64
  pageSize := 4096
  registered := [.genwqe]

def firstCard : InitArgs := ⟨0, .genwqe, 31⟩

/- Everything can be had. -/
def allGiven : InitEnv :=
  ⟨true, ⟨true, true, true⟩, true, true, true, true⟩

def oneStream : HwSystem :=
  HwSystem.start.addDeflate
    (hDeflateInit2 flatConfig firstCard allGiven
      HwSystem.start.cards HwSystem.start.ledger)

theorem run_oneStream :
    Run (HwStep flatConfig) HwSystem.start
      [.deflateInit firstCard allGiven] oneStream :=
  Run.next Run.start (HwStep.deflateInit _ _ _)

def firstStream : HwStream where
  self := 0
  cardNo := 0
  cardType := .genwqe
  device := ⟨1, ⟨2, 3, 0, .genwqe⟩⟩
  flatIn := true
  flatOut := true
  flatWs := true
  ibufTotal := 64
  ibufBase := some 4
  obufTotal := Hardware.hDeflateBound 4096 64
  obufBase := some 5
  wsp := some 6

/- A copy that has all but its output buffer. -/
def noObuf : CopyEnv :=
  ⟨true, true, ⟨true, true, true⟩, true, false⟩

theorem nothing_lost_noObuf :
    ¬ HwSystem.Accounted flatConfig
      (oneStream.addDeflate
        (hDeflateCopy flatConfig noObuf firstStream
          oneStream.cards oneStream.ledger)) := by
  have hStream : oneStream.deflates[0]? = some firstStream :=
    rfl
  have hRun :=
    Run.next run_oneStream (HwStep.deflateCopy noObuf hStream)
  rw [nothing_lost_iff hRun]
  intro hNone
  refine hNone _ _ _ (List.prefix_refl _) run_oneStream
    ((HwOp.abandons_copy hStream).mpr ⟨rfl, rfl, ?_⟩)
  rintro ⟨_, hBuffers⟩
  exact absurd (hBuffers.obuf (by decide)) (by decide)

/- All handles of the table are closed. -/
theorem clean_zedcHwDone
    {cards : Cards}
    (hCards : CardsOk cfg cards)
    (own : Held) :
    Clean (cardsHeld cards + own) (zedcHwDone cfg cards)
      (fun _ own' => own' = own) := by
  unfold zedcHwDone
  cases hCache : cfg.cacheHandles with
  | false =>
      have hNothing : cardsHeld cards = 0 := by
        apply Finset.sum_eq_zero
        intro i _
        rw [hCards.none hCache i, heldBy_none]
      rw [if_neg Bool.false_ne_true, hNothing, zero_add]
      exact Clean.pure rfl
  | true =>
      rw [if_pos rfl]
      unfold cardsHeld
      rw [Fin.sum_univ_def]
      refine clean_forM (fun i own => ?_) _ _
      cases cards i with
      | none => exact Clean.pure (zero_add _)
      | some zedc => exact clean_zedcClose

/-
  When all streams have been ended and the library is left,
  nothing is held any more, and nothing was used or returned
  that was not held, exactly if no copy has been abandoned.
-/
theorem nothing_left_iff
    (hRun : Run (HwStep cfg) HwSystem.start trace sys)
    (hDeflates : sys.deflates = [])
    (hInflates : sys.inflates = []) :
    ((zedcHwDone cfg sys.cards sys.ledger).2.live = [] ∧
        (zedcHwDone cfg sys.cards sys.ledger).2.wrong = []) ↔
      NoneAbandoned cfg trace := by
  rcases keeps_of_run hRun with ⟨lost, hKeeps, hLost, hWrong⟩
  have hOwned :
      lost + sys.owned cfg = cardsHeld sys.cards + lost := by
    unfold HwSystem.owned
    rw [hDeflates, hInflates]
    simp only [allHeld, List.map_nil, List.sum_nil, add_zero]
    exact add_comm _ _
  have hHolds := hKeeps.holds
  rw [hOwned] at hHolds
  rcases clean_zedcHwDone hKeeps.cards lost _ hHolds with
    ⟨_, _, hHolds', hWrong', rfl, rfl⟩
  rw [List.append_nil] at hWrong'
  rw [hWrong', ← hLost, ← hHolds'.live]
  constructor
  · rintro ⟨hNil, _⟩
    rw [hNil]
    rfl
  · intro hZero
    refine ⟨Multiset.coe_eq_zero _ |>.mp hZero, ?_⟩
    rw [← hHolds'.live] at hLost
    exact hWrong (hLost.mp hZero)

def oneEnded : HwSystem :=
  { oneStream with
    ledger :=
      (hDeflateEnd flatConfig firstStream oneStream.ledger).2
    deflates := oneStream.deflates.eraseIdx 0 }

theorem nothing_left_oneEnded :
    (zedcHwDone flatConfig oneEnded.cards
        oneEnded.ledger).2.live = [] ∧
      (zedcHwDone flatConfig oneEnded.cards
        oneEnded.ledger).2.wrong = [] := by
  have hStream : oneStream.deflates[0]? = some firstStream :=
    rfl
  have hRun :
      Run (HwStep flatConfig) HwSystem.start
        ([.deflateInit firstCard allGiven] ++ [.deflateEnd 0])
        oneEnded :=
    Run.next run_oneStream (HwStep.deflateEnd hStream)
  refine (nothing_left_iff hRun rfl rfl).mpr ?_
  intro past op sys hPre _
  have hMem : op ∈ [HwOp.deflateInit firstCard allGiven,
      HwOp.deflateEnd 0] :=
    hPre.subset (by simp)
  rcases List.mem_pair.mp hMem with rfl | rfl
  · exact fun h => h
  · exact fun h => h

end Runs

end Lifecycle
