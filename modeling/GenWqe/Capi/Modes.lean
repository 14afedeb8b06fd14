import GenWqe.Capi.Clients

/-
  The mode of a card context against the device that was
  opened, the loop that the done thread runs and the
  notifications that DDCBs ask for.

  Key definitions include:
    * `CardCtx.Agrees` and `ModesAgree`
    * `ModeFits`

  Main results:
    * `modesAgree_iff`
-/

namespace Capi.Cards

------------------------------------------------------------
-- Agreement with the Mode
------------------------------------------------------------

/-
  The AFU was opened as the device that the mode asks for,
  with its queues if that is a slave, and a thread that has
  chosen its loop runs the one that the mode asks for.
-/
def CardCtx.Agrees (ctx : CardCtx) : Prop :=
  (∃ afu, ctx.afuH = some afu ∧
      afu.master = isMaster ctx.mode ∧
      (afu.master = false →
        ctx.waitq = true ∧ afu.ddcbq = true)) ∧
    ∀ loop, ctx.loop = some loop →
      loop = doneLoop ctx.mode

/- The loop of the done thread, or the one it will choose. -/
def CardCtx.waitsIn (ctx : CardCtx) : DoneLoop :=
  ctx.loop.getD (doneLoop ctx.mode)

/- The loop that a DDCB needs to be noticed by. -/
def wantedLoop (useIrq : Bool) : DoneLoop :=
  if useIrq then .irqs else .polling

/- A DDCB went to a card. -/
def Submitted
    (trace : List CapiEvent)
    (c : Card)
    (useIrq : Bool) : Prop :=
  ∃ addr,
    (Call.execute addr,
      Answer.executed (.submitted c useIrq)) ∈ trace

/-
  Cards with a handle attached agree with their mode, and the
  done thread of a card waits for what the DDCBs submitted
  to it ask for.
-/
def ModesAgree
    (trace : List CapiEvent)
    (s : CapiState) : Prop :=
  (∀ c ttx, ttx ∈ s.live → ttx.attached c = true →
      (s.ctxs c).Agrees) ∧
    ∀ c useIrq, Submitted trace c useIrq →
      (s.ctxs c).waitsIn = wantedLoop useIrq

/- An open of the card would not open the AFU anew. -/
def CardCtx.TakesOver
    (ctx : CardCtx)
    (mode : UInt32) : Prop :=
  (ctx.clients ≠ 0 ∧ mode = ctx.mode) ∨
    (ctx.clients = 0 ∧ ctx.doneTid = true)

/-
  What is there fits the mode: the device, the loop if it is
  chosen, and else the DDCBs that wait for the choice.
-/
def CardCtx.Fits
    (ctx : CardCtx)
    (mode : UInt32)
    (asked : Bool → Prop) : Prop :=
  (∃ afu, ctx.afuH = some afu ∧
      afu.master = isMaster mode) ∧
    (∀ loop, ctx.loop = some loop → loop = doneLoop mode) ∧
    (ctx.loop = none →
      ∀ useIrq, asked useIrq →
        doneLoop mode = wantedLoop useIrq)

/-
  An open that does not open an AFU anew finds one that fits
  the mode it was called with.
-/
def ModeFits
    (trace : List CapiEvent)
    (s : CapiState) : Call → Prop
  | .open call =>
      ∀ c, call.AsksFor c →
        (s.ctxs c).TakesOver call.mode →
          (s.ctxs c).Fits call.mode (Submitted trace c)
  | _ => True

/- The part of the invariant about one context. -/
structure CardCtx.Steady
    (ctx : CardCtx)
    (asked : Bool → Prop) : Prop where
  agrees : ctx.afuH.isSome → ctx.Agrees
  asked :
    ∀ useIrq, asked useIrq →
      ctx.afuH.isSome ∧ ctx.waitsIn = wantedLoop useIrq

section Ctx

variable {ctx ctx' : CardCtx} {mode : UInt32}
variable {attempt : OpenAttempt} {rc : Int}
variable {asked : Bool → Prop}

theorem CardCtx.Agrees.isOpen
    (hAgrees : ctx.Agrees) :
    ctx.afuH.isSome := by
  rcases hAgrees with ⟨⟨afu, hAfu, -⟩, -⟩
  simp [hAfu]

/- A context is steady for as long as nobody touches it. -/
theorem CardCtx.Steady.congr
    (hSteady : ctx.Steady asked)
    (hMode : ctx'.mode = ctx.mode)
    (hAfu : ctx'.afuH = ctx.afuH)
    (hWaitq : ctx'.waitq = ctx.waitq)
    (hLoop : ctx'.loop = ctx.loop) :
    ctx'.Steady asked := by
  refine ⟨fun hOpen => ?_, fun useIrq hAsked => ?_⟩
  · unfold CardCtx.Agrees
    rw [hMode, hAfu, hWaitq, hLoop]
    exact hSteady.agrees (hAfu ▸ hOpen)
  · unfold CardCtx.waitsIn
    rw [hMode, hAfu, hLoop]
    exact hSteady.asked useIrq hAsked

/- Taking over what fits leads to agreement. -/
theorem CardCtx.Fits.agrees
    (hTended : ctx.Tended)
    (hFits : ctx.Fits mode asked) :
    { ctx with mode := mode, clients := 1 }.Agrees := by
  rcases hFits with ⟨⟨afu, hAfu, hMaster⟩, hLoop, -⟩
  exact ⟨⟨afu, hAfu, hMaster, hTended.queue afu hAfu⟩,
    hLoop⟩

/-
  An open that takes over only what fits keeps the context
  steady; a card that lets the client in is open.
-/
theorem ClientInc.steady
    (hTended : ctx.Tended)
    (hSteady : ctx.Steady asked)
    (hInc : ClientInc ctx mode attempt rc ctx')
    (hFits : ctx.TakesOver mode → ctx.Fits mode asked) :
    ctx'.Steady asked ∧
      (rc = ddcbOk → ctx'.afuH.isSome) := by
  cases hInc with
  | shared hClients hMode =>
      rcases (hFits (Or.inl ⟨hClients, hMode⟩)).1 with
        ⟨afu, hAfu, -⟩
      exact ⟨hSteady.congr rfl rfl rfl rfl,
        fun _ => by simp [hAfu]⟩
  | refused _ _ =>
      exact ⟨hSteady, fun hOk => (ddcbErrno_ne_ok hOk).elim⟩
  | reused hClients hTid =>
      have hHere := hFits (Or.inr ⟨hClients, hTid⟩)
      have hAgrees := hHere.agrees hTended
      refine ⟨⟨fun _ => hAgrees, fun useIrq hAsked => ?_⟩,
        fun _ => hAgrees.isOpen⟩
      refine ⟨hAgrees.isOpen, ?_⟩
      have hWaits := (hSteady.asked useIrq hAsked).2
      unfold CardCtx.waitsIn at hWaits ⊢
      cases hLoop : ctx.loop with
      | none => exact hHere.2.2 hLoop useIrq hAsked
      | some loop =>
          rw [hLoop] at hWaits
          exact hWaits
  | opened _ hTid _ =>
      have hClosed := (hTended.closed hTid).1
      refine ⟨⟨fun _ => ⟨⟨_, rfl, rfl, ?_⟩, ?_⟩,
        fun useIrq hAsked => ?_⟩, fun _ => rfl⟩
      · intro hMaster
        simp only at hMaster
        simp [CardCtx.fresh, hMaster]
      · intro loop hLoop
        cases hLoop
      · have hOpen := (hSteady.asked useIrq hAsked).1
        simp [hClosed] at hOpen
  | failed _ hTid _ hRc _ hAfu _ =>
      have hClosed := (hTended.closed hTid).1
      refine ⟨⟨fun hOpen => ?_, fun useIrq hAsked => ?_⟩,
        fun hOk => (hRc hOk).elim⟩
      · simp [hAfu] at hOpen
      · have hOpen := (hSteady.asked useIrq hAsked).1
        simp [hClosed] at hOpen

/- Agreement afterwards shows that it fitted. -/
theorem ClientInc.fits
    (hInc : ClientInc ctx mode attempt rc ctx')
    (hAgrees : rc = ddcbOk → ctx'.Agrees)
    (hAsked :
      ∀ useIrq, asked useIrq →
        ctx'.waitsIn = wantedLoop useIrq)
    (hTakes : ctx.TakesOver mode) :
    ctx.Fits mode asked := by
  unfold CardCtx.TakesOver at hTakes
  cases hInc with
  | shared hClients hMode =>
      rcases hAgrees rfl with
        ⟨⟨afu, hAfu, hMaster, -⟩, hLoop⟩
      rw [hMode]
      refine ⟨⟨afu, hAfu, hMaster⟩, hLoop, ?_⟩
      intro hNone useIrq hAsks
      have hWaits := hAsked useIrq hAsks
      unfold CardCtx.waitsIn at hWaits
      rw [hNone] at hWaits
      exact hWaits
  | refused hClients hMode =>
      simp [hClients, hMode] at hTakes
  | reused hClients hTid =>
      rcases hAgrees rfl with
        ⟨⟨afu, hAfu, hMaster, -⟩, hLoop⟩
      refine ⟨⟨afu, hAfu, hMaster⟩, hLoop, ?_⟩
      intro hNone useIrq hAsks
      have hWaits := hAsked useIrq hAsks
      unfold CardCtx.waitsIn at hWaits
      rw [hNone] at hWaits
      exact hWaits
  | opened hClients hTid _ =>
      simp [hClients, hTid] at hTakes
  | failed hClients hTid _ _ _ _ _ =>
      simp [hClients, hTid] at hTakes

end Ctx

------------------------------------------------------------
-- The Invariant
------------------------------------------------------------

/- The cards that handles are attached to are open. -/
structure Steady
    (trace : List CapiEvent)
    (s : CapiState) : Prop where
  sound : s.Sound
  ctx : ∀ c, (s.ctxs c).Steady (Submitted trace c)
  attached :
    ∀ c ttx, ttx ∈ s.live → ttx.attached c = true →
      (s.ctxs c).afuH.isSome

theorem Steady.modesAgree
    {trace : List CapiEvent} {s : CapiState}
    (hSteady : Steady trace s) :
    ModesAgree trace s :=
  ⟨fun c ttx hMem hAttached =>
      (hSteady.ctx c).agrees
        (hSteady.attached c ttx hMem hAttached),
    fun c useIrq hAsked =>
      ((hSteady.ctx c).asked useIrq hAsked).2⟩

section Submissions

variable {past : List CapiEvent} {c : Card} {useIrq : Bool}

/- A new event counts only if it is a submission. -/
theorem submitted_concat
    (event : CapiEvent) :
    Submitted (past ++ [event]) c useIrq ↔
      Submitted past c useIrq ∨
        ∃ addr,
          event =
            (Call.execute addr,
              Answer.executed (.submitted c useIrq)) := by
  unfold Submitted
  constructor
  · rintro ⟨addr, hMem⟩
    rcases List.mem_append.mp hMem with hOld | hNew
    · exact Or.inl ⟨addr, hOld⟩
    · exact Or.inr ⟨addr, (List.mem_singleton.mp hNew).symm⟩
  · rintro (⟨addr, hOld⟩ | ⟨addr, hNew⟩)
    · exact ⟨addr, List.mem_append_left _ hOld⟩
    · exact ⟨addr, by simp [hNew]⟩

/- A call other than an execute submits nothing. -/
theorem submitted_other
    {event : CapiEvent}
    (hOther : ∀ addr, event.1 ≠ .execute addr) :
    Submitted (past ++ [event]) c = Submitted past c := by
  funext useIrq
  rw [submitted_concat]
  refine propext (or_iff_left ?_)
  rintro ⟨addr, hEvent⟩
  exact hOther addr (congrArg Prod.fst hEvent)

/- The card that a submission went to. -/
theorem executeMulti_submitted
    {ctxs : Card → CardCtx} {ttx : Ttx}
    (hSubmitted :
      executeMulti ctxs ttx = .submitted c useIrq) :
    (ctxs c).afuH.isSome ∧
      doneLoop (ctxs c).mode = wantedLoop useIrq := by
  unfold executeMulti at hSubmitted
  cases hCtx : ttx.ctx with
  | none => simp [hCtx] at hSubmitted
  | some d =>
      simp only [hCtx] at hSubmitted
      split at hSubmitted
      · cases hSubmitted
      rename_i hMaster
      split at hSubmitted
      · cases hSubmitted
      rename_i hAfu
      cases hSubmitted
      refine ⟨Option.isSome_iff_ne_none.mpr hAfu, ?_⟩
      unfold doneLoop wantedLoop
      rw [if_neg hMaster]
      cases isPolling (ctxs c).mode <;> rfl

end Submissions

section Steps

variable {past : List CapiEvent}
variable {s s' : CapiState} {event : CapiEvent}

/- Every call that fits keeps the invariant. -/
theorem steady_step
    (hSteady : Steady past s)
    (hStep : capiStep s event s')
    (hFits : ModeFits past s event.1) :
    Steady (past ++ [event]) s' := by
  have hSound := hSteady.sound
  have hSound' := capiStep_sound hSound hStep
  cases capiStep_outcome hStep with
  | refused _ _ =>
      refine ⟨hSound', fun c => ?_, hSteady.attached⟩
      rw [submitted_other (fun _ h => by cases h)]
      exact hSteady.ctx c
  | @failed call c hCard hAlloc hRc =>
      have hHere := (hSound.inc call c).steady
        (hSound.tended c) (hSteady.ctx c)
        (hFits c ⟨hAlloc, Or.inl hCard⟩)
      refine ⟨hSound', fun d => ?_, fun d ttx hMem hAtt => ?_⟩
      · rw [submitted_other (fun _ h => by cases h)]
        by_cases hd : d = c
        · subst hd
          simp only [Function.update_self]
          exact hHere.1
        · simp only [Function.update_of_ne hd]
          exact hSteady.ctx d
      · have hOpen := hSteady.attached d ttx hMem hAtt
        by_cases hd : d = c
        · subst hd
          simp only [Function.update_self]
          rw [(hSound.inc call d).afu_kept
            (hSound.tended d) hOpen]
          exact hOpen
        · simp only [Function.update_of_ne hd]
          exact hOpen
  | @single call c ttx hCard hAlloc hRc _ _ hAttached =>
      have hHere := (hSound.inc call c).steady
        (hSound.tended c) (hSteady.ctx c)
        (hFits c ⟨hAlloc, Or.inl hCard⟩)
      refine ⟨hSound', fun d => ?_, fun d t hMem hAtt => ?_⟩
      · rw [submitted_other (fun _ h => by cases h)]
        by_cases hd : d = c
        · subst hd
          simp only [Function.update_self]
          exact hHere.1
        · simp only [Function.update_of_ne hd]
          exact hSteady.ctx d
      · by_cases hd : d = c
        · subst hd
          simp only [Function.update_self]
          exact hHere.2 hRc
        · simp only [Function.update_of_ne hd]
          rcases List.mem_cons.mp hMem with rfl | hOld
          · rw [hAttached, decide_eq_false hd] at hAtt
            cases hAtt
          · exact hSteady.attached d t hOld hAtt
  | @redundant call ttx hCard hAlloc _ _ hAttached =>
      have hHere := fun d => (hSound.inc call d).steady
        (hSound.tended d) (hSteady.ctx d)
        (hFits d ⟨hAlloc, Or.inr hCard⟩)
      refine ⟨hSound', fun d => ?_, fun d t hMem hAtt => ?_⟩
      · rw [submitted_other (fun _ h => by cases h)]
        exact (hHere d).1
      · rcases List.mem_cons.mp hMem with rfl | hOld
        · rw [hAttached] at hAtt
          exact (hHere d).2 (of_decide_eq_true hAtt)
        · have hOpen := hSteady.attached d t hOld hAtt
          simp only
          rw [(hSound.inc call d).afu_kept
            (hSound.tended d) hOpen]
          exact hOpen
  | nothing =>
      refine ⟨hSound', fun c => ?_, hSteady.attached⟩
      rw [submitted_other (fun _ h => by cases h)]
      exact hSteady.ctx c
  | @closed addr ttx hHandle =>
      refine ⟨hSound', fun d => ?_, fun d t hMem hAtt => ?_⟩
      · rw [submitted_other (fun _ h => by cases h),
          cardClose_ctxs]
        split
        · exact (hSteady.ctx d).congr rfl rfl rfl rfl
        · exact hSteady.ctx d
      · have hOpen := hSteady.attached d t
          (List.mem_of_mem_erase hMem) hAtt
        rw [cardClose_ctxs]
        split
        · exact hOpen
        · exact hOpen
  | @executed addr ttx hHandle =>
      refine ⟨hSound', fun d => ⟨(hSteady.ctx d).agrees,
        fun useIrq hAsked => ?_⟩, fun d t hMem hAtt => ?_⟩
      · rcases (submitted_concat _).mp hAsked with
          hOld | ⟨addr', hNew⟩
        · exact (hSteady.ctx d).asked useIrq hOld
        · have hSubmission :
              executeMulti s.ctxs (chooseCard s.ctxs ttx) =
                .submitted d useIrq :=
            Answer.executed.inj (congrArg Prod.snd hNew)
          rcases executeMulti_submitted hSubmission with
            ⟨hOpen, hWanted⟩
          refine ⟨hOpen, ?_⟩
          have hLoops := ((hSteady.ctx d).agrees hOpen).2
          change (s.ctxs d).waitsIn = _
          unfold CardCtx.waitsIn
          cases hLoop : (s.ctxs d).loop with
          | none => exact hWanted
          | some loop =>
              rw [hLoops loop hLoop]
              exact hWanted
      · rcases mem_executed hMem with hOld | ⟨hOld, rfl⟩
        · exact hSteady.attached d t hOld hAtt
        · rw [chooseCard_attached] at hAtt
          exact hSteady.attached d ttx hOld hAtt
  | @chosen c hTid hAfu hLoop =>
      refine ⟨hSound', fun d => ?_, fun d t hMem hAtt => ?_⟩
      · rw [submitted_other (fun _ h => by cases h)]
        by_cases hd : d = c
        · subst hd
          simp only [Function.update_self]
          have hHere := hSteady.ctx d
          refine ⟨fun hOpen => ⟨(hHere.agrees hOpen).1,
            fun loop h => ?_⟩, fun useIrq hAsked => ?_⟩
          · cases h
            rfl
          · have hWaits := (hHere.asked useIrq hAsked).2
            unfold CardCtx.waitsIn at hWaits
            rw [hLoop] at hWaits
            exact ⟨hAfu, hWaits⟩
        · simp only [Function.update_of_ne hd]
          exact hSteady.ctx d
      · have hOpen := hSteady.attached d t hMem hAtt
        by_cases hd : d = c
        · subst hd
          simp only [Function.update_self]
          exact hOpen
        · simp only [Function.update_of_ne hd]
          exact hOpen

/- Agreement behind a call shows that the call fitted. -/
theorem modeFits_of_agree
    (hSteady : Steady past s)
    (hStep : capiStep s event s')
    (hAgree : ModesAgree (past ++ [event]) s') :
    ModeFits past s event.1 := by
  have hSound := hSteady.sound
  cases capiStep_outcome hStep with
  | @refused call rc hRefused hRc =>
      intro c hAsks
      rcases hRefused with hNone | hNoAlloc
      · rcases hAsks.2 with hSome | hSome <;>
          rw [hNone] at hSome <;> cases hSome
      · have hAlloc := hAsks.1
        rw [hNoAlloc] at hAlloc
        cases hAlloc
  | @failed call c hCard hAlloc hRc =>
      intro d hAsks
      rcases hAsks.2 with hSome | hSome
      · rw [hCard] at hSome
        cases hSome
        refine (hSound.inc call c).fits
          (fun hOk => (hRc hOk).elim) (fun useIrq hAsked => ?_)
        have hWaits := hAgree.2 c useIrq
          ((submitted_concat _).mpr (Or.inl hAsked))
        simpa only [Function.update_self] using hWaits
      · rw [hCard] at hSome
        cases hSome
  | @single call c ttx hCard hAlloc hRc _ _ hAttached =>
      intro d hAsks
      rcases hAsks.2 with hSome | hSome
      · rw [hCard] at hSome
        cases hSome
        refine (hSound.inc call c).fits
          (fun _ => ?_) (fun useIrq hAsked => ?_)
        · have hHere := hAgree.1 c ttx
            (List.mem_cons_self) (by simp [hAttached])
          simpa only [Function.update_self] using hHere
        · have hWaits := hAgree.2 c useIrq
            ((submitted_concat _).mpr (Or.inl hAsked))
          simpa only [Function.update_self] using hWaits
      · rw [hCard] at hSome
        cases hSome
  | @redundant call ttx hCard hAlloc _ _ hAttached =>
      intro d hAsks
      refine (hSound.inc call d).fits
        (fun hOk => ?_) (fun useIrq hAsked => ?_)
      · exact hAgree.1 d ttx (List.mem_cons_self)
          (by rw [hAttached, decide_eq_true hOk])
      · exact hAgree.2 d useIrq
          ((submitted_concat _).mpr (Or.inl hAsked))
  | nothing => trivial
  | closed _ => trivial
  | executed _ => trivial
  | chosen _ _ _ => trivial

end Steps

theorem init_steady : Steady [] CapiState.init := by
  refine ⟨init_sound, fun c => ⟨fun hOpen => ?_,
    fun useIrq hAsked => ?_⟩, fun c ttx hMem => ?_⟩
  · cases hOpen
  · rcases hAsked with ⟨addr, hMem⟩
    cases hMem
  · cases hMem

/-
  The cards agree with their modes all through a run exactly
  if each open that takes a card over finds what fits.
-/
theorem modesAgree_iff
    {trace : List CapiEvent} {s : CapiState}
    (hRun : CapiRun trace s) :
    (∀ past s₁,
        past <+: trace → CapiRun past s₁ →
          ModesAgree past s₁) ↔
      ∀ past event s₁,
        past ++ [event] <+: trace → CapiRun past s₁ →
          ModeFits past s₁ event.1 :=
  hRun.all_good_iff Steady ModesAgree
    (fun past s event => ModeFits past s event.1)
    capiStep_unique
    init_steady
    (fun _ _ h => h.modesAgree)
    (fun _ _ _ _ h hStep hFits =>
      steady_step h hStep hFits)
    (fun _ _ _ _ h hStep hAgree =>
      modeFits_of_agree h hStep hAgree)

------------------------------------------------------------
-- Another Mode at a Reopen
------------------------------------------------------------

/- The first card was opened for interrupts and closed. -/
def openedForIrqs : CapiState :=
  (cardOpen CapiState.init (openCard 0 0)).2

/- Its done thread has chosen the loop for interrupts. -/
def runningIrqs : CapiState :=
  { openedForIrqs with
    ctxs :=
      Function.update openedForIrqs.ctxs 0
        { openedForIrqs.ctxs 0 with loop := some .irqs } }

/-
  A card opened for interrupts is closed and opened again for
  polling: the thread still waits for interrupts.
-/
theorem modesAgree_fails :
    ¬∀ trace s, CapiRun trace s → ModesAgree trace s := by
  intro hAll
  have hOpened := CapiRun.open Run.start (openCard 0 0)
  have hRuns : CapiRun _ runningIrqs :=
    hOpened.doneThread rfl
  have hHandle : runningIrqs.handle 1 =
      some ((runningIrqs.handle 1).get rfl) := rfl
  have hClosed := hRuns.close hHandle
  have hAgain := hClosed.open (openCard 0 0x20)
  have hAgrees := (hAll _ _ hAgain).1 0 _
    (List.mem_cons_self) rfl
  have hLoop := hAgrees.2 .irqs rfl
  revert hLoop
  decide

/- A second handle of the same mode fits. -/
theorem modesAgree_iff_twice :
    let trace :=
      [] ++ [CapiState.init.openEvent (openCard 0 0)] ++
        [openedForIrqs.openEvent (openCard 0 0)]
    (∀ past s₁,
        past <+: trace → CapiRun past s₁ →
          ModesAgree past s₁) ↔
      ∀ past event s₁,
        past ++ [event] <+: trace → CapiRun past s₁ →
          ModeFits past s₁ event.1 := by
  have hOpened := CapiRun.open Run.start (openCard 0 0)
  exact modesAgree_iff (hOpened.open (openCard 0 0))

end Capi.Cards
