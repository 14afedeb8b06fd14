import GenWqe.Capi.System

/-
  Completions and sequence numbers: with which number a
  request is completed, and what becomes of a completion that
  the card wrote for an earlier request in the same slot.

  Key definitions include:
    * `Completion.Matched` and `Completion.TakesForeign`
    * `Event.OwnWrite`

  Main results:
    * `numbersInv_step`
    * `completions_matched_iff`
-/

namespace Capi

------------------------------------------------------------
-- Codes and Numbers
------------------------------------------------------------

/- With the check as it is, success is what was passed. -/
theorem storedCode_eq_ok_iff
    (good : Bool)
    (complCode : Int) :
    storedCode good complCode = ddcbOk ↔
      complCode = ddcbOk := by
  unfold storedCode
  by_cases hOk : complCode = ddcbOk
  · simp [hOk]
  · cases good with
    | true => simp [hOk]
    | false =>
        rw [if_pos rfl, if_pos hOk]
        exact ⟨fun h => absurd h (by decide),
          fun h => absurd h hOk⟩

section Numbers

variable {H : Type}

/- The code stored is that of the check of the numbers. -/
def Completion.Stored (c : Completion H) : Prop :=
  c.complCode =
    storedCode (decide (c.rsvd0e = c.rsvdC0)) c.passed

/-
  Success only with the number the request was given, and an
  error with every other one.
-/
def Completion.Matched (c : Completion H) : Prop :=
  (c.complCode = ddcbOk → c.rsvdC0 = c.job.seqnum) ∧
    (c.rsvdC0 ≠ c.job.seqnum → c.complCode ≠ ddcbOk)

/-
  `__ddcb_done_post` was called with `DDCB_OK` while the slot
  held the number of another request.
-/
def Completion.TakesForeign (c : Completion H) : Prop :=
  c.passed = ddcbOk ∧ c.rsvdC0 ≠ c.job.seqnum

theorem Completion.Stored.ok_iff
    {c : Completion H}
    (hStored : c.Stored) :
    c.complCode = ddcbOk ↔ c.passed = ddcbOk := by
  unfold Completion.Stored at hStored
  rw [hStored]
  exact storedCode_eq_ok_iff _ _

theorem Completion.Stored.matched_iff
    {c : Completion H}
    (hStored : c.Stored) :
    c.Matched ↔ ¬ c.TakesForeign := by
  unfold Completion.Matched Completion.TakesForeign
  rw [ne_eq, ne_eq, hStored.ok_iff]
  constructor
  · rintro ⟨hOk, _⟩ ⟨hPassed, hNumber⟩
    exact hNumber (hOk hPassed)
  · intro hOwn
    refine ⟨fun hPassed => ?_, fun hNumber hPassed => ?_⟩
    · by_contra hNumber
      exact hOwn ⟨hPassed, hNumber⟩
    · exact hOwn ⟨hPassed, hNumber⟩

/-
  A write of the card that sets a return code in a slot of
  the queue comes with the number of the request in the slot.
-/
def Event.OwnWrite : Event H → Prop
  | .written result (some seqnum) =>
      result.retc ≠ 0 → result.rsvdC0 = seqnum
  | _ => True

------------------------------------------------------------
-- Slots and Completions
------------------------------------------------------------

/- A slot of the queue carries the number it was given. -/
def NumberOk (ctx : DevCtx H) : Prop :=
  ∀ i, (ctx.waitq i).status = .ddcbIn →
    i < numDdcbs → (ctx.ddcb i).rsvd0e = (ctx.waitq i).seqnum

/- A return code in a slot of the queue is its own. -/
def RetcOk (ctx : DevCtx H) : Prop :=
  ∀ i, (ctx.waitq i).status = .ddcbIn →
    i < numDdcbs →
      (ctx.ddcb i).result.retc ≠ 0 →
        (ctx.ddcb i).result.rsvdC0 = (ctx.waitq i).seqnum

/- The completions so far, and what their slots held. -/
structure NumbersInv
    (trace : List (Event H))
    (s : System H) : Prop where
  out_lt : s.mem.ctx.ddcbOut < numDdcbs
  number : NumberOk s.mem.ctx
  stored : ∀ c ∈ completions trace, c.Stored
  given :
    ∀ c ∈ completions trace, c.rsvd0e = c.job.seqnum
  retc :
    (∀ event ∈ trace, event.OwnWrite) →
      RetcOk s.mem.ctx ∧
        ∀ c ∈ completions trace,
          c.passed = ddcbOk → c.rsvdC0 = c.job.seqnum

theorem numbersInv_init
    (ctx : DevCtx H)
    (ttxs : H → Ttxs)
    (cmds : Nat → DdcbCmd) :
    NumbersInv [] (systemInit ctx ttxs cmds) := by
  have hFree :
      ∀ i < numDdcbs,
        (setupWaitq ctx.waitq i).status ≠ .ddcbIn := by
    intro i hLt
    unfold setupWaitq
    rw [if_pos hLt]
    exact fun h => nomatch h
  exact ⟨(by decide : 0 < numDdcbs),
    fun i hIn hLt => absurd hIn (hFree i hLt),
    fun _ h => (nomatch h), fun _ h => (nomatch h),
    fun _ => ⟨fun i hIn hLt => absurd hIn (hFree i hLt),
      fun _ h => nomatch h⟩⟩

/- Filling a slot gives it a number and no return code. -/
theorem NumberOk.execute
    {ctx : DevCtx H}
    (hNumber : NumberOk ctx)
    (ttx : H) (myCmd : Nat) (cmd : DdcbCmd)
    (last : Bool) (now : UInt64) :
    NumberOk
      (ddcbExecuteSection ctx ttx myCmd cmd last now) := by
  intro i hIn hLt
  unfold ddcbExecuteSection at hIn ⊢
  by_cases hSame : i = ctx.ddcbIn
  · subst hSame
    simp only [Function.update_self]
    rfl
  · simp only [Function.update_of_ne hSame] at hIn ⊢
    exact hNumber i hIn hLt

theorem RetcOk.execute
    {ctx : DevCtx H}
    (hRetc : RetcOk ctx)
    (ttx : H) (myCmd : Nat) (cmd : DdcbCmd)
    (last : Bool) (now : UInt64) :
    RetcOk
      (ddcbExecuteSection ctx ttx myCmd cmd last now) := by
  intro i hIn hLt
  unfold ddcbExecuteSection at hIn ⊢
  by_cases hSame : i = ctx.ddcbIn
  · subst hSame
    simp only [Function.update_self]
    exact fun hZero => absurd rfl hZero
  · simp only [Function.update_of_ne hSame] at hIn ⊢
    exact hRetc i hIn hLt

/- Giving a slot back leaves the others as they are. -/
theorem DevCtx.release_in
    {ctx : DevCtx H} {i : Nat}
    (hIn : (ctx.release.waitq i).status = .ddcbIn) :
    ctx.release.waitq i = ctx.waitq i := by
  unfold DevCtx.release at hIn ⊢
  by_cases hSame : i = ctx.ddcbOut
  · subst hSame
    simp only [Function.update_self] at hIn
    exact nomatch hIn
  · simp only [Function.update_of_ne hSame]

theorem NumberOk.release
    {ctx : DevCtx H}
    (hNumber : NumberOk ctx) :
    NumberOk ctx.release := by
  intro i hIn hLt
  have hSame := DevCtx.release_in hIn
  rw [hSame] at hIn ⊢
  exact hNumber i hIn hLt

theorem RetcOk.release
    {ctx : DevCtx H}
    (hRetc : RetcOk ctx) :
    RetcOk ctx.release := by
  intro i hIn hLt
  have hSame := DevCtx.release_in hIn
  rw [hSame] at hIn ⊢
  exact hRetc i hIn hLt

/- A write changes the result of one slot alone. -/
theorem NumberOk.write
    {s : System H}
    (hNumber : NumberOk s.mem.ctx)
    (idx : Nat)
    (result : DdcbResult) :
    NumberOk (s.write idx result).mem.ctx := by
  intro i hIn hLt
  have hOld := hNumber i hIn hLt
  unfold System.write System.setCtx
  by_cases hSame : i = idx
  · subst hSame
    simp only [Function.update_self]
    exact hOld
  · simp only [Function.update_of_ne hSame]
    exact hOld

theorem RetcOk.write
    {s : System H}
    (hRetc : RetcOk s.mem.ctx)
    {idx : Nat}
    {result : DdcbResult}
    (hOwn :
      Event.OwnWrite
        (.written result (s.mem.ctx.holds idx) : Event H)) :
    RetcOk (s.write idx result).mem.ctx := by
  intro i hIn hLt
  have hOld := hRetc i hIn hLt
  unfold System.write System.setCtx
  by_cases hSame : i = idx
  · subst hSame
    simp only [Function.update_self]
    have hHolds :
        s.mem.ctx.holds i = some (s.mem.ctx.waitq i).seqnum :=
      if_pos hIn
    rw [hHolds] at hOwn
    exact hOwn
  · simp only [Function.update_of_ne hSame]
    exact hOld

------------------------------------------------------------
-- Runs
------------------------------------------------------------

variable {trace : List (Event H)} {s s' : System H}

/- Steps that complete nothing. -/
theorem NumbersInv.keep
    (hInv : NumbersInv trace s)
    {event : Event H}
    (hOut : s'.mem.ctx.ddcbOut = s.mem.ctx.ddcbOut)
    (hDone : event.completion = none)
    (hNumber : NumberOk s'.mem.ctx)
    (hRetc :
      event.OwnWrite →
        RetcOk s.mem.ctx → RetcOk s'.mem.ctx) :
    NumbersInv (trace ++ [event]) s' := by
  have hSame :
      completions (trace ++ [event]) = completions trace := by
    rw [completions_append, hDone]
    exact List.append_nil _
  refine ⟨?_, hNumber, ?_, ?_, ?_⟩
  · rw [hOut]
    exact hInv.out_lt
  · rw [hSame]
    exact hInv.stored
  · rw [hSame]
    exact hInv.given
  · intro hOwn
    rw [hSame]
    have hPast := hInv.retc (fun e hMem =>
      hOwn e (List.mem_append_left _ hMem))
    exact ⟨hRetc (hOwn event (by simp)) hPast.1, hPast.2⟩

variable [DecidableEq H]

/- The done thread completes a slot. -/
theorem NumbersInv.complete
    (hInv : NumbersInv trace s)
    {complCode : Int}
    {cmd : Nat} {ttx : H}
    (hStatus :
      (s.mem.ctx.waitq s.mem.ctx.ddcbOut).status = .ddcbIn)
    (hCmd :
      (s.mem.ctx.waitq s.mem.ctx.ddcbOut).cmd = some cmd)
    (hTtx :
      (s.mem.ctx.waitq s.mem.ctx.ddcbOut).ttx = some ttx)
    (hRetc :
      complCode = ddcbOk →
        (s.mem.ctx.ddcb s.mem.ctx.ddcbOut).result.retc ≠ 0)
    {c : Completion H} {mem : Driver H}
    (hComplete :
      ddcbComplete s.mem complCode =
        some (.completed c, mem))
    (thread : DoneThread) :
    NumbersInv (trace ++ [.posted (.completed c)])
      { s with mem := mem, thread := thread } := by
  rcases ddcbComplete_spec hCmd hTtx hComplete with
    ⟨hResult, hCtx, -⟩
  cases hResult
  have hGiven := hInv.number _ hStatus hInv.out_lt
  refine ⟨?_, ?_, ?_, ?_, ?_⟩
  · change mem.ctx.ddcbOut < numDdcbs
    rw [hCtx]
    exact Nat.mod_lt _ (by decide)
  · change NumberOk mem.ctx
    rw [hCtx]
    exact hInv.number.release
  · intro c hMem
    rw [completions_append] at hMem
    rcases List.mem_append.mp hMem with hPast | hNow
    · exact hInv.stored c hPast
    · rw [List.mem_singleton.mp hNow]
      rfl
  · intro c hMem
    rw [completions_append] at hMem
    rcases List.mem_append.mp hMem with hPast | hNow
    · exact hInv.given c hPast
    · rw [List.mem_singleton.mp hNow]
      exact hGiven
  · intro hOwn
    have hPastOk := hInv.retc (fun e hMem =>
      hOwn e (List.mem_append_left _ hMem))
    refine ⟨?_, ?_⟩
    · change RetcOk mem.ctx
      rw [hCtx]
      exact hPastOk.1.release
    · intro c hMem hPassed
      rw [completions_append] at hMem
      rcases List.mem_append.mp hMem with hPast | hNow
      · exact hPastOk.2 c hPast hPassed
      · rw [List.mem_singleton.mp hNow] at hPassed ⊢
        exact hPastOk.1 _ hStatus hInv.out_lt
          (hRetc hPassed)

/- Every step keeps the invariant. -/
theorem numbersInv_step
    (hInv : NumbersInv trace s)
    {event : Event H}
    (hNext : s.Next event s') :
    NumbersInv (trace ++ [event]) s' := by
  have hNumber := hInv.number
  cases hNext.outcome with
  | refused => exact hInv.keep rfl rfl hNumber (fun _ h => h)
  | called => exact hInv.keep rfl rfl hNumber (fun _ h => h)
  | acquired => exact hInv.keep rfl rfl hNumber (fun _ h => h)
  | submitted =>
      exact hInv.keep rfl rfl (hNumber.execute _ _ _ _ _)
        (fun _ h => h.execute _ _ _ _ _)
  | returned => exact hInv.keep rfl rfl hNumber (fun _ h => h)
  | written _ result =>
      exact hInv.keep rfl rfl (hNumber.write _ _)
        (fun hOwn h => h.write hOwn)
  | woken => exact hInv.keep rfl rfl hNumber (fun _ h => h)
  | @posted _ result _ _ hPost =>
      cases hPost with
      | leave hResult =>
          refine hInv.keep rfl ?_ hNumber (fun _ h => h)
          cases result with
          | completed c => exact absurd rfl (hResult c)
          | stop => rfl
          | cont => rfl
      | complete hStatus hCmd hTtx hRetc hComplete =>
          exact hInv.complete hStatus hCmd hTtx hRetc
            hComplete _

theorem numbersInv_of_run
    (hRun : SystemRun trace s) :
    NumbersInv trace s := by
  rcases hRun with ⟨ctx, ttxs, cmds, hRun⟩
  exact hRun.invariant NumbersInv
    (numbersInv_init ctx ttxs cmds)
    (fun _ _ _ _ hInv hNext => numbersInv_step hInv hNext)

/-
  In every run the completions are matched by number exactly
  if no completion takes a number of another request, and in
  particular if the card writes no such number with a return
  code into a slot of the queue.
-/
theorem completions_matched_iff
    (hRun : SystemRun trace s) :
    ((∀ c ∈ completions trace, c.Matched) ↔
        ∀ c ∈ completions trace, ¬ c.TakesForeign) ∧
      ((∀ event ∈ trace, event.OwnWrite) →
        ∀ c ∈ completions trace, c.Matched) := by
  have hInv := numbersInv_of_run hRun
  have hIff :
      ∀ c ∈ completions trace,
        (c.Matched ↔ ¬ c.TakesForeign) :=
    fun c hMem => (hInv.stored c hMem).matched_iff
  refine ⟨⟨fun hAll c hMem => (hIff c hMem).mp (hAll c hMem),
    fun hAll c hMem => (hIff c hMem).mpr (hAll c hMem)⟩, ?_⟩
  intro hOwn c hMem
  refine (hIff c hMem).mpr ?_
  rintro ⟨hPassed, hNumber⟩
  exact hNumber ((hInv.retc hOwn).2 c hMem hPassed)

end Numbers

------------------------------------------------------------
-- A Late Completion in a Reused Slot
------------------------------------------------------------

/- A completion for the request with the number `seqnum`. -/
def completeResult (seqnum : UInt16) : DdcbResult :=
  ⟨[], seqnum, 0, 0, Zedc.ddcbRetcComplete, 0, 0, 0⟩

/-
  Five requests. The first one times out, and its slot goes
  to the fifth one; the other three time out too. Then the
  card completes the first one, in the slot of the fifth.
-/
def lateActions : List (Action Unit) :=
  [.call () [0, 1, 2, 3, 4],
    .acquire (), .submit () 0, .acquire (), .submit () 0,
    .acquire (), .submit () 0, .acquire (), .submit () 0,
    .wake .timeout, .donePost 5000,
    .acquire (), .submit () 5000,
    .wake .timeout, .donePost 5000,
    .wake .timeout, .donePost 5000,
    .wake .timeout, .donePost 5000,
    .write 0 (completeResult 0xf00d),
    .wake .afuInterrupt, .donePost 5000]

/- The fifth request is credited with the first's result. -/
theorem late_completion_credited :
    ¬ ∀ (trace : List (Event Unit)) (s : System Unit),
      SystemRun trace s →
        ∀ c ∈ completions trace, c.Matched := by
  intro hAll
  rcases SystemRun.of_actions
    (by decide :
      (runActions (staticInit false 5)
        lateActions).isSome = true) with
    ⟨s, hRun⟩
  have hMem :
      (⟨⟨(), 4, 0xf011⟩, ddcbOk, 0xf011,
          completeResult 0xf00d, ddcbOk, true⟩ :
          Completion Unit) ∈
        completions (traceOf 5 lateActions) := by
    decide
  exact absurd ((hAll _ s hRun _ hMem).1 rfl) (by decide)

/- One request, completed with its own number. -/
def promptActions : List (Action Unit) :=
  [.call () [0], .acquire (), .submit () 0,
    .write 0 (completeResult 0xf00d),
    .wake .afuInterrupt, .donePost 1]

theorem completions_matched_prompt :
    completions (traceOf 5 promptActions) ≠ [] ∧
      ∀ c ∈ completions (traceOf 5 promptActions),
        c.Matched := by
  rcases SystemRun.of_actions
    (by decide :
      (runActions (staticInit false 5)
        promptActions).isSome = true) with
    ⟨s, hRun⟩
  have hOwn :
      ∀ c ∈ completions (traceOf 5 promptActions),
        ¬ c.TakesForeign := by
    unfold Completion.TakesForeign
    decide
  exact ⟨by decide,
    (completions_matched_iff hRun).1.mpr hOwn⟩

end Capi
