import GenWqe.Capi.Open

/-
  The client count of each card against the handles that are
  attached to it.

  Key definitions include:
    * `ClientsCounted`
    * `CountKept`

  Main results:
    * `clientsCounted_iff`
-/

namespace Capi.Cards

------------------------------------------------------------
-- Counting Clients
------------------------------------------------------------

/- The number of open handles attached to a card. -/
def CapiState.attachedTo (s : CapiState) (c : Card) : Nat :=
  s.live.countP (fun ttx => ttx.attached c)

/- The AFU is open, and its queue is set up if it has one. -/
def CardCtx.Ready (ctx : CardCtx) : Prop :=
  ∃ afu, ctx.afuH = some afu ∧ ctx.ring = true ∧
    (afu.master = false →
      ctx.waitq = true ∧ afu.ddcbq = true)

/-
  Every card counts the open handles attached to it, and one
  that has clients is ready for them.
-/
def ClientsCounted (s : CapiState) : Prop :=
  ∀ c,
    (s.ctxs c).clients = s.attachedTo c ∧
      0 ≤ (s.ctxs c).clients ∧
      (0 < (s.ctxs c).clients → (s.ctxs c).Ready)

/- The call asks for this card. -/
def OpenCall.AsksFor (call : OpenCall) (c : Card) : Prop :=
  call.alloc = true ∧
    (cardOfNo call.cardNo = some (some c) ∨
      cardOfNo call.cardNo = some none)

/-
  No open takes over a done thread without an AFU, and no
  close is of a handle for all cards that some card did not
  let in.
-/
def CountKept (s : CapiState) : Call → Prop
  | .open call =>
      ∀ c, call.AsksFor c →
        (s.ctxs c).clients = 0 →
          (s.ctxs c).doneTid = true →
            (s.ctxs c).afuH.isSome
  | .close (some addr) =>
      ∀ ttx, s.handle addr = some ttx →
        ttx.cardNo = none →
          ∀ c, ttx.attached c = true
  | _ => True

section Ctx

variable {ctx ctx' : CardCtx} {mode : UInt32}
variable {attempt : OpenAttempt} {rc : Int}

theorem CardCtx.Tended.ready
    (hTended : ctx.Tended)
    (hAfu : ctx.afuH.isSome) :
    ctx.Ready := by
  rcases Option.isSome_iff_exists.mp hAfu with ⟨afu, hSome⟩
  exact ⟨afu, hSome, hTended.ring hAfu,
    hTended.queue afu hSome⟩

theorem CardCtx.Ready.isOpen
    (hReady : ctx.Ready) :
    ctx.afuH.isSome := by
  rcases hReady with ⟨afu, hSome, -⟩
  simp [hSome]

/- Only a successful call counts a client. -/
theorem ClientInc.counts
    (hInc : ClientInc ctx mode attempt rc ctx') :
    ctx'.clients =
      ctx.clients + if rc = ddcbOk then 1 else 0 := by
  cases hInc with
  | shared _ _ => simp
  | refused _ _ => simp [ddcbErrno_ne_ok]
  | reused hClients _ => simp [hClients]
  | opened hClients _ _ => simp [hClients, CardCtx.fresh]
  | failed hClients _ _ hRc hClients' =>
      simp [hClients, hRc, hClients']

/-
  A card that was open for its clients is so again, unless a
  thread without an AFU was taken over.
-/
theorem ClientInc.open_iff
    (hInc : ClientInc ctx mode attempt rc ctx')
    (hOpen : 0 < ctx.clients → ctx.afuH.isSome)
    (hCount : 0 ≤ ctx.clients) :
    (0 < ctx'.clients → ctx'.afuH.isSome) ↔
      (ctx.clients = 0 → ctx.doneTid = true →
        ctx.afuH.isSome) := by
  cases hInc with
  | shared hClients _ =>
      have hPos : 0 < ctx.clients :=
        lt_of_le_of_ne hCount (Ne.symm hClients)
      exact iff_of_true (fun _ => hOpen hPos)
        (fun _ _ => hOpen hPos)
  | refused hClients _ =>
      exact iff_of_true hOpen
        (fun hZero => (hClients hZero).elim)
  | reused hClients hTid => simp [hClients, hTid]
  | opened _ hTid _ => simp [hTid, CardCtx.fresh]
  | failed _ hTid _ _ hClients' =>
      simp [hTid, hClients']

end Ctx

section Counts

variable {s s' : CapiState} {event : CapiEvent}

/- What counting comes to in a sound state. -/
theorem clientsCounted_iff_open
    (hSound : s.Sound) :
    ClientsCounted s ↔
      ∀ c,
        (s.ctxs c).clients = s.attachedTo c ∧
          (0 < (s.ctxs c).clients →
            (s.ctxs c).afuH.isSome) := by
  refine forall_congr' (fun c => ?_)
  constructor
  · rintro ⟨hCount, -, hReady⟩
    exact ⟨hCount, fun hPos => (hReady hPos).isOpen⟩
  · rintro ⟨hCount, hOpen⟩
    refine ⟨hCount, ?_, fun hPos =>
      (hSound.tended c).ready (hOpen hPos)⟩
    rw [hCount]
    exact Int.natCast_nonneg _

/- A new handle adds to the cards that it is attached to. -/
theorem attachedTo_cons
    (ttx : Ttx)
    (ctxs : Card → CardCtx)
    (next : Nat)
    (c : Card) :
    ((⟨ctxs, ttx :: s.live, next⟩ :
        CapiState).attachedTo c : Int) =
      s.attachedTo c + if ttx.attached c then 1 else 0 := by
  unfold CapiState.attachedTo
  rw [List.countP_cons]
  push_cast
  rfl

/- A handle that is closed no longer counts. -/
theorem attachedTo_close
    {ttx : Ttx}
    (hMem : ttx ∈ s.live)
    (c : Card) :
    ((cardClose s ttx).attachedTo c : Int) =
      s.attachedTo c - if ttx.attached c then 1 else 0 := by
  have hPerm := (List.perm_cons_erase hMem).countP_eq
    (fun ttx => ttx.attached c)
  rw [List.countP_cons] at hPerm
  unfold CapiState.attachedTo
  rw [hPerm]
  push_cast
  simp [cardClose]

theorem attachedTo_execute
    (ttx : Ttx)
    (c : Card) :
    (ddcbExecute s ttx).2.attachedTo c = s.attachedTo c := by
  unfold CapiState.attachedTo ddcbExecute
  rw [List.countP_map]
  congr 1
  funext t
  by_cases hSame : t = ttx
  · simp [hSame, chooseCard_attached]
  · simp [hSame]

/-
  An open keeps the count, and keeps the cards with clients
  open exactly if it takes over no thread without an AFU.
-/
theorem inc_counted
    {call : OpenCall} {c : Card} {a : Bool}
    (hSound : s.Sound)
    (hCounted : ClientsCounted s)
    (hAttached :
      a = decide ((call.after s.ctxs c).1 = ddcbOk)) :
    (call.after s.ctxs c).2.clients =
        s.attachedTo c + (if a then 1 else 0) ∧
      ((0 < (call.after s.ctxs c).2.clients →
          (call.after s.ctxs c).2.afuH.isSome) ↔
        ((s.ctxs c).clients = 0 →
          (s.ctxs c).doneTid = true →
            (s.ctxs c).afuH.isSome)) := by
  have hInc := hSound.inc call c
  rcases hCounted c with ⟨hCount, hNonneg, hReady⟩
  refine ⟨?_, hInc.open_iff
    (fun hPos => (hReady hPos).isOpen) hNonneg⟩
  rw [hInc.counts, hCount, hAttached]
  simp

/-
  A call out of a state that counts its clients leads to one
  exactly if it is one of those that keep the count.
-/
theorem clientsCounted_step
    (hSound : s.Sound)
    (hCounted : ClientsCounted s)
    (hStep : capiStep s event s') :
    ClientsCounted s' ↔ CountKept s event.1 := by
  have hSound' := capiStep_sound hSound hStep
  rw [clientsCounted_iff_open hSound']
  have hBefore := (clientsCounted_iff_open hSound).mp hCounted
  cases capiStep_outcome hStep with
  | @refused call rc hRefused hRc =>
      refine iff_of_true hBefore (fun c hAsks => ?_)
      rcases hRefused with hNone | hNoAlloc
      · rcases hAsks.2 with hSome | hSome <;>
          rw [hNone] at hSome <;> cases hSome
      · have hAlloc := hAsks.1
        rw [hNoAlloc] at hAlloc
        cases hAlloc
  | @failed call c hCard hAlloc hRc =>
      have hHere := inc_counted hSound hCounted
        (decide_eq_false hRc).symm
      constructor
      · intro hAfter d hAsks
        rcases hAsks.2 with hSome | hSome
        · rw [hCard] at hSome
          cases hSome
          have hOpen := (hAfter c).2
          simp only [Function.update_self] at hOpen
          exact hHere.2.mp hOpen
        · rw [hCard] at hSome
          cases hSome
      · intro hKept d
        by_cases hd : d = c
        · subst hd
          simp only [Function.update_self]
          refine ⟨?_, hHere.2.mpr
            (hKept d ⟨hAlloc, Or.inl hCard⟩)⟩
          rw [hHere.1]
          simp [CapiState.attachedTo]
        · simp only [Function.update_of_ne hd]
          exact hBefore d
  | @single call c ttx hCard hAlloc hRc hNo hCtx
      hAttached =>
      have hHere := inc_counted (c := c) hSound hCounted
        (decide_eq_true hRc).symm
      constructor
      · intro hAfter d hAsks
        rcases hAsks.2 with hSome | hSome
        · rw [hCard] at hSome
          cases hSome
          have hOpen := (hAfter c).2
          simp only [Function.update_self] at hOpen
          exact hHere.2.mp hOpen
        · rw [hCard] at hSome
          cases hSome
      · intro hKept d
        rw [attachedTo_cons, hAttached]
        by_cases hd : d = c
        · subst hd
          simp only [Function.update_self]
          refine ⟨?_, hHere.2.mpr
            (hKept d ⟨hAlloc, Or.inl hCard⟩)⟩
          rw [hHere.1]
          simp
        · simp only [Function.update_of_ne hd]
          simpa [hd] using hBefore d
  | @redundant call ttx hCard hAlloc hNo hCtx hAttached =>
      constructor
      · intro hAfter d _
        exact (inc_counted hSound hCounted
          (hAttached d)).2.mp (hAfter d).2
      · intro hKept d
        have hHere :=
          inc_counted hSound hCounted (hAttached d)
        rw [attachedTo_cons]
        exact ⟨hHere.1, hHere.2.mpr
          (hKept d ⟨hAlloc, Or.inr hCard⟩)⟩
  | nothing => exact iff_of_true hBefore trivial
  | @closed addr ttx hHandle =>
      have hMem := handle_mem hHandle
      cases hNo : ttx.cardNo with
      | some c =>
          refine iff_of_true (fun d => ?_) (fun t ht hNone => ?_)
          · rw [attachedTo_close hMem, cardClose_ctxs,
              (hSound.bound ttx hMem c hNo).2 d, hNo]
            by_cases hd : c = d
            · subst hd
              rcases hBefore c with ⟨hCount, hOpen⟩
              simp only [reduceCtorEq, or_true, if_true,
                clientDec, decide_true]
              exact ⟨by rw [hCount],
                fun hPos => hOpen (by omega)⟩
            · simpa [hd, Ne.symm hd] using hBefore d
          · rw [hHandle] at ht
            cases ht
            rw [hNo] at hNone
            cases hNone
      | none =>
          constructor
          · intro hAfter t ht _ c
            rw [hHandle] at ht
            cases ht
            have hCount := (hAfter c).1
            rw [attachedTo_close hMem, cardClose_ctxs, hNo,
              if_pos (Or.inl rfl)] at hCount
            simp only [clientDec, (hBefore c).1] at hCount
            by_contra hNot
            rw [if_neg hNot] at hCount
            omega
          · intro hKept c
            have hAttached := hKept ttx hHandle hNo c
            rcases hBefore c with ⟨hCount, hOpen⟩
            rw [attachedTo_close hMem, cardClose_ctxs, hNo,
              if_pos (Or.inl rfl), hAttached]
            simp only [clientDec, if_true]
            exact ⟨by rw [hCount],
              fun hPos => hOpen (by omega)⟩
  | @executed addr ttx hHandle =>
      refine iff_of_true (fun c => ?_) trivial
      rw [attachedTo_execute]
      exact hBefore c
  | @chosen c hTid hAfu hLoop =>
      refine iff_of_true (fun d => ?_) trivial
      by_cases hd : d = c
      · subst hd
        simp only [Function.update_self]
        exact hBefore d
      · simp only [Function.update_of_ne hd]
        exact hBefore d

end Counts

theorem init_counted : ClientsCounted CapiState.init :=
  fun _ => ⟨rfl, le_rfl, fun h => (lt_irrefl 0 h).elim⟩

/-
  The cards count their clients all through a run exactly if
  each of its calls is one of those that keep the count.
-/
theorem clientsCounted_iff
    {trace : List CapiEvent} {s : CapiState}
    (hRun : CapiRun trace s) :
    (∀ past s₁,
        past <+: trace → CapiRun past s₁ →
          ClientsCounted s₁) ↔
      ∀ past event s₁,
        past ++ [event] <+: trace → CapiRun past s₁ →
          CountKept s₁ event.1 :=
  hRun.all_good_iff
    (fun _ s => s.Sound ∧ ClientsCounted s)
    (fun _ s => ClientsCounted s)
    (fun _ s event => CountKept s event.1)
    capiStep_unique
    ⟨init_sound, init_counted⟩
    (fun _ _ h => h.2)
    (fun _ _ _ _ h hStep hKept =>
      ⟨capiStep_sound h.1 hStep,
        (clientsCounted_step h.1 h.2 hStep).mpr hKept⟩)
    (fun _ _ _ _ h hStep hCounted =>
      (clientsCounted_step h.1 h.2 hStep).mp hCounted)

------------------------------------------------------------
-- A Card That Does Not Open
------------------------------------------------------------

/- Everything that opening a device meets is fine. -/
def fineAttempt : OpenAttempt :=
  { doneSem := 0
    thread := 0
    leftTid := false
    probe :=
      { freeSem := 0
        openDev := true
        apiVersion := 0
        apiCompatible := true
        crVendor := (0, cgzipCrVendor)
        crDevice := (0, cgzipCrDevice)
        attach := 0
        mmioMap := 0
        ddcbqConfig := 0 } }

/- There is no device. -/
def noDevice : OpenAttempt :=
  { fineAttempt with
    probe := { fineAttempt.probe with openDev := false } }

/- An open for all cards that finds those of `present`. -/
def openPresent
    (present : Card → Bool)
    (mode : UInt32) : OpenCall :=
  { cardNo := accelRedundant
    mode := mode
    alloc := true
    start := 0
    attempts := fun c =>
      if present c then fineAttempt else noDevice }

/- An open of one card that is there. -/
def openCard (c : Card) (mode : UInt32) : OpenCall :=
  { openPresent (fun _ => true) mode with cardNo := c.val }

/- All cards but the first were opened. -/
def withoutFirst : CapiState :=
  (cardOpen CapiState.init
    (openPresent (fun c => decide (c ≠ 0)) 0)).2

/-
  A handle for all cards is closed although the first of them
  did not let it in: the count of that card goes below zero.
-/
theorem clientsCounted_fails :
    ¬∀ trace s, CapiRun trace s → ClientsCounted s := by
  intro hAll
  have hOpened := CapiRun.open Run.start
    (openPresent (fun c => decide (c ≠ 0)) 0)
  have hHandle : withoutFirst.handle 1 =
      some ((withoutFirst.handle 1).get rfl) := rfl
  have hClosed := CapiRun.close hOpened hHandle
  have hNegative := (hAll _ _ hClosed 0).2.1
  revert hNegative
  decide

/- All cards were opened. -/
def withAll : CapiState :=
  (cardOpen CapiState.init
    (openPresent (fun _ => true) 0)).2

/- The handle for all cards is opened, and closed again. -/
def openedAndClosed : List CapiEvent :=
  [] ++
    [CapiState.init.openEvent
      (openPresent (fun _ => true) 0)] ++
    [closeEvent 1]

/- The handle that the open returned. -/
def allHandle : Ttx := (withAll.handle 1).get rfl

theorem withAll_run :
    CapiRun
      ([] ++
        [CapiState.init.openEvent
          (openPresent (fun _ => true) 0)])
      withAll :=
  CapiRun.open Run.start (openPresent (fun _ => true) 0)

theorem withAll_handle : withAll.handle 1 = some allHandle :=
  rfl

/-
  With every card there the count is kept: each card has one
  client while the handle is open, and none behind its close.
-/
theorem clientsCounted_iff_present :
    (∀ past s₁,
        past <+: openedAndClosed → CapiRun past s₁ →
          ClientsCounted s₁) ∧
      (∀ c, (withAll.ctxs c).clients = 1 ∧
        withAll.attachedTo c = 1) ∧
      ∀ c, ((cardClose withAll allHandle).ctxs c).clients =
        0 := by
  refine ⟨?_, by decide, by decide⟩
  apply (clientsCounted_iff
    (withAll_run.close withAll_handle)).mpr
  let P : CapiState → CapiEvent → Prop := fun s event =>
    CountKept s event.1
  have hNone : CapiRun [] CapiState.init := Run.start
  have hOpen :=
    Run.all_steps_next P capiStep_unique hNone
      (l := CapiState.init.openEvent
        (openPresent (fun _ => true) 0))
      (fun _ _ _ hPre _ => by simp at hPre)
      (fun _ _ _ hTid => by cases hTid)
  apply Run.all_steps_next P capiStep_unique withAll_run hOpen
  -- every card let the handle in
  intro ttx hTtx _ c
  obtain rfl := Option.some.inj (withAll_handle.symm.trans hTtx)
  revert c
  decide

end Capi.Cards
