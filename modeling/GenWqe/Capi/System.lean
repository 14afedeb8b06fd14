import GenWqe.Lib.Runs
import GenWqe.Capi.Ddcb

/-
  Callers, the done thread and the card around the DDCB queue
  of one context, as one transition system: each section under
  the lock of the context is one step.

  Key definitions include:
    * `System`, `Caller` and `DoneThread`
    * `Action`, `Event` and `systemStep`
    * `SystemRun`
    * `CallLog` and `callLog`

  Main results:
    * `systemStep_outcome`
-/

namespace Capi

------------------------------------------------------------
-- Callers and the Done Thread
------------------------------------------------------------

/-
  Where a handle is in `__ddcb_execute_multi`: not called, on
  its way through the rest of the chain (with a free slot
  acquired or not), or blocked on its own semaphore.
-/
inductive Caller where
  | idle
  | filling (rest : List Nat) (acquired : Bool)
  | waiting
  deriving DecidableEq, Repr

/-
  Where the done thread is: before `select`, or about to call
  `__ddcb_done_post` once or as long as it returns `true`.
-/
inductive DoneThread where
  | select
  | once (complCode : Int)
  | drain (complCode : Int)
  deriving DecidableEq, Repr

/-
  What `select` and `cxl_read_event` end with; `poll` is a
  turn of the polling loop.
-/
inductive Wakeup where
  | poll
  | timeout
  | interrupted
  | selectFail
  | readFail
  | afuInterrupt
  | dataStorage
  | afuError
  | unknown
  deriving DecidableEq, Repr

/-
  `__ddcb_process_polling` and `__ddcb_process_irqs`: what
  the done thread does next.
-/
def Wakeup.work : Wakeup → DoneThread
  | .poll => .drain ddcbOk
  | .timeout => .once ddcbErrIrqtimeout
  | .interrupted => .select
  | .selectFail => .drain ddcbErrSelectfail
  | .readFail => .select
  | .afuInterrupt => .drain ddcbOk
  | .dataStorage => .drain ddcbErrEventfail
  | .afuError => .drain ddcbErrEventfail
  | .unknown => .once ddcbErrEventfail

/- The code that the done thread is about to pass on. -/
def DoneThread.code : DoneThread → Option Int
  | .select => none
  | .once complCode => some complCode
  | .drain complCode => some complCode

/- The done thread behind a call of `__ddcb_done_post`. -/
def DoneThread.after
    (thread : DoneThread)
    (again : Bool) : DoneThread :=
  match thread with
  | .drain complCode =>
      if again then .drain complCode else .select
  | _ => .select

/- The context with its handles and its done thread. -/
structure System (H : Type) where
  mem : Driver H
  callers : H → Caller
  thread : DoneThread

------------------------------------------------------------
-- Steps
------------------------------------------------------------

/- What can happen next, with what is decided outside. -/
inductive Action (H : Type) where
  | call (ttx : H) (chain : List Nat)
  | acquire (ttx : H)
  | submit (ttx : H) (now : UInt64)
  | ret (ttx : H)
  | write (idx : Nat) (result : DdcbResult)
  | wake (wakeup : Wakeup)
  | donePost (now : UInt64)

/-
  What happened. A write of the card comes with the number of
  the request that the slot holds, if it holds one.
-/
inductive Event (H : Type) where
  | called (ttx : H) (chain : List Nat)
  | refused (ttx : H) (rc : Int)
  | acquired (ttx : H)
  | submitted (job : Job H)
  | returned (ttx : H) (rc : Int)
  | written (result : DdcbResult) (holds : Option UInt16)
  | woken (wakeup : Wakeup)
  | posted (result : PostResult H)
  deriving DecidableEq, Repr

section Steps

variable {H : Type}

/- The command that an event put into the queue. -/
def Event.job : Event H → Option (Job H)
  | .submitted job => some job
  | _ => none

/- The completion that an event is. -/
def Event.completion : Event H → Option (Completion H)
  | .posted (.completed c) => some c
  | _ => none

/- The commands put into the queue, in order. -/
def submittedJobs (trace : List (Event H)) :
    List (Job H) :=
  trace.filterMap Event.job

/- The completions, in order; each copies results back. -/
def completions (trace : List (Event H)) :
    List (Completion H) :=
  trace.filterMap Event.completion

theorem submittedJobs_append
    (trace : List (Event H))
    (event : Event H) :
    submittedJobs (trace ++ [event]) =
      submittedJobs trace ++ event.job.toList := by
  unfold submittedJobs
  rw [List.filterMap_append]
  cases hEvent : event.job with
  | none => simp [hEvent]
  | some job => simp [hEvent]

theorem completions_append
    (trace : List (Event H))
    (event : Event H) :
    completions (trace ++ [event]) =
      completions trace ++ event.completion.toList := by
  unfold completions
  rw [List.filterMap_append]
  cases hEvent : event.completion with
  | none => simp [hEvent]
  | some c => simp [hEvent]

variable [DecidableEq H]

/- The handle `ttx` is now at `caller`. -/
def System.setCaller
    (s : System H)
    (ttx : H)
    (caller : Caller) : System H :=
  { s with callers := Function.update s.callers ttx caller }

def System.setCtx
    (s : System H)
    (ctx : DevCtx H) : System H :=
  { s with mem := { s.mem with ctx := ctx } }

/- `sem_wait(&ctx->free_sem)` returns. -/
def System.acquire
    (s : System H)
    (ttx : H)
    (rest : List Nat) : System H :=
  (s.setCtx
    { s.mem.ctx with
      freeSem := s.mem.ctx.freeSem - 1 }).setCaller ttx
    (.filling rest true)

/- Where the caller is behind the section. -/
def Caller.behind : List Nat → Caller
  | [] => .waiting
  | rest => .filling rest false

/- The section that puts `cmd` into the queue. -/
def System.submit
    (s : System H)
    (ttx : H)
    (cmd : Nat)
    (rest : List Nat)
    (now : UInt64) : System H :=
  (s.setCtx
    (ddcbExecuteSection s.mem.ctx ttx cmd (s.mem.cmds cmd)
      rest.isEmpty now)).setCaller ttx (.behind rest)

/- `sem_wait(&ttx->wait_sem)` returns, and the call too. -/
def System.finish (s : System H) (ttx : H) : System H :=
  { s with
    mem := { s.mem with
      ttxs := Function.update s.mem.ttxs ttx
        { s.mem.ttxs ttx with
          waitSem := (s.mem.ttxs ttx).waitSem - 1 } }
    callers := Function.update s.callers ttx .idle }

/- The card fills in the result of a slot. -/
def System.write
    (s : System H)
    (idx : Nat)
    (result : DdcbResult) : System H :=
  s.setCtx
    { s.mem.ctx with
      ddcb := Function.update s.mem.ctx.ddcb idx
        { s.mem.ctx.ddcb idx with result := result } }

/- The number of the request that a slot holds. -/
def DevCtx.holds (ctx : DevCtx H) (idx : Nat) :
    Option UInt16 :=
  if (ctx.waitq idx).status = .ddcbIn then
    some (ctx.waitq idx).seqnum
  else
    none

/- The done thread calls `__ddcb_done_post`. -/
def systemDonePost
    (s : System H)
    (now : UInt64) :
    Option (Event H × System H) :=
  match s.thread.code with
  | none => none
  | some complCode =>
      (ddcbDonePost s.mem complCode now).map
        (fun out =>
          (.posted out.1,
            { s with
              mem := out.2
              thread := s.thread.after out.1.again }))

/- One step, or `none` where the action is not possible. -/
def systemStep
    (s : System H) :
    Action H → Option (Event H × System H)
  | .call ttx chain =>
      match s.callers ttx, chain with
      | .idle, [] => some (.refused ttx ddcbErrInval, s)
      | .idle, cmd :: rest =>
          some (.called ttx (cmd :: rest),
            s.setCaller ttx (.filling (cmd :: rest) false))
      | _, _ => none
  | .acquire ttx =>
      match s.callers ttx with
      | .filling rest false =>
          if s.mem.ctx.freeSem = 0 then none
          else some (.acquired ttx, s.acquire ttx rest)
      | _ => none
  | .submit ttx now =>
      match s.callers ttx with
      | .filling (cmd :: rest) true =>
          some
            (.submitted ⟨ttx, cmd, s.mem.ctx.ddcbSeqnum⟩,
              s.submit ttx cmd rest now)
      | _ => none
  | .ret ttx =>
      match s.callers ttx with
      | .waiting =>
          if (s.mem.ttxs ttx).waitSem = 0 then none
          else
            some (.returned ttx (s.mem.ttxs ttx).complCode,
              s.finish ttx)
      | _ => none
  | .write idx result =>
      if idx < numDdcbs then
        some (.written result (s.mem.ctx.holds idx),
          s.write idx result)
      else none
  | .wake wakeup =>
      if s.thread = .select ∧
          (wakeup = .poll ↔ s.mem.ctx.polling = true) then
        some (.woken wakeup, { s with thread := wakeup.work })
      else none
  | .donePost now => systemDonePost s now

/- The steps, with what each of them needs. -/
inductive SystemStep (s : System H) :
    Event H → System H → Prop
  | refused
      {ttx : H} {rc : Int} :
      SystemStep s (.refused ttx rc) s
  | called
      {ttx : H} {chain : List Nat}
      (hCaller : s.callers ttx = .idle)
      (hChain : chain ≠ []) :
      SystemStep s (.called ttx chain)
        (s.setCaller ttx (.filling chain false))
  | acquired
      {ttx : H} {rest : List Nat}
      (hCaller : s.callers ttx = .filling rest false)
      (hFree : s.mem.ctx.freeSem ≠ 0) :
      SystemStep s (.acquired ttx) (s.acquire ttx rest)
  | submitted
      {ttx : H} {cmd : Nat} {rest : List Nat}
      (hCaller :
        s.callers ttx = .filling (cmd :: rest) true)
      (now : UInt64) :
      SystemStep s
        (.submitted ⟨ttx, cmd, s.mem.ctx.ddcbSeqnum⟩)
        (s.submit ttx cmd rest now)
  | returned
      {ttx : H}
      (hCaller : s.callers ttx = .waiting)
      (hPosted : (s.mem.ttxs ttx).waitSem ≠ 0) :
      SystemStep s
        (.returned ttx (s.mem.ttxs ttx).complCode)
        (s.finish ttx)
  | written
      {idx : Nat}
      (hIdx : idx < numDdcbs)
      (result : DdcbResult) :
      SystemStep s
        (.written result (s.mem.ctx.holds idx))
        (s.write idx result)
  | woken
      (wakeup : Wakeup) :
      SystemStep s (.woken wakeup)
        { s with thread := wakeup.work }
  | posted
      {complCode : Int}
      {result : PostResult H} {mem : Driver H}
      (hThread : s.thread.code = some complCode)
      (hPost : DonePost s.mem complCode result mem) :
      SystemStep s (.posted result)
        { s with
          mem := mem
          thread := s.thread.after result.again }

theorem systemStep_outcome
    {s s' : System H}
    {action : Action H} {event : Event H}
    (hStep : systemStep s action = some (event, s')) :
    SystemStep s event s' := by
  unfold systemStep at hStep
  cases action with
  | call ttx chain =>
      simp only at hStep
      split at hStep
      · cases hStep
        exact .refused
      · cases hStep
        exact .called ‹_› (List.cons_ne_nil _ _)
      · exact nomatch hStep
  | acquire ttx =>
      simp only at hStep
      split at hStep
      · split at hStep
        · exact nomatch hStep
        · cases hStep
          exact .acquired ‹_› ‹_›
      · exact nomatch hStep
  | submit ttx now =>
      simp only at hStep
      split at hStep
      · cases hStep
        exact .submitted ‹_› now
      · exact nomatch hStep
  | ret ttx =>
      simp only at hStep
      split at hStep
      · split at hStep
        · exact nomatch hStep
        · cases hStep
          exact .returned ‹_› ‹_›
      · exact nomatch hStep
  | write idx result =>
      simp only at hStep
      split at hStep
      · cases hStep
        exact .written ‹_› result
      · exact nomatch hStep
  | wake wakeup =>
      simp only at hStep
      split at hStep
      · cases hStep
        exact .woken wakeup
      · exact nomatch hStep
  | donePost now =>
      simp only [systemDonePost] at hStep
      split at hStep
      · exact nomatch hStep
      · rename_i complCode hThread
        rcases Option.map_eq_some_iff.mp hStep with
          ⟨⟨result, mem⟩, hPost, hOut⟩
        cases hOut
        exact .posted hThread (ddcbDonePost_outcome hPost)

------------------------------------------------------------
-- Runs
------------------------------------------------------------

/- Some action has the event and leads on. -/
def System.Next
    (s : System H)
    (event : Event H)
    (s' : System H) : Prop :=
  ∃ action, systemStep s action = some (event, s')

theorem System.Next.outcome
    {s s' : System H} {event : Event H}
    (hNext : s.Next event s') :
    SystemStep s event s' := by
  rcases hNext with ⟨action, hStep⟩
  exact systemStep_outcome hStep

/-
  A context just opened: no handle is in a call, no semaphore
  of a handle is posted, the done thread is about to wait.
-/
def systemInit
    (ctx : DevCtx H)
    (ttxs : H → Ttxs)
    (cmds : Nat → DdcbCmd) : System H :=
  { mem :=
      { ctx := afuOpen ctx
        ttxs := fun ttx => { ttxs ttx with waitSem := 0 }
        cmds := cmds }
    callers := fun _ => .idle
    thread := .select }

/- A run of the system from a context just opened. -/
def SystemRun (trace : List (Event H)) (s : System H) :
    Prop :=
  ∃ ctx ttxs cmds,
    Run System.Next (systemInit ctx ttxs cmds) trace s

/- `my_ctx` as static memory, with the time-out `tout`. -/
def staticCtx (polling : Bool) (tout : Int) : DevCtx H :=
  { ddcb := fun _ => ⟨0, 0, 0, 0, 0, 0, 0, 0, 0, [],
      ⟨[], 0, 0, 0, 0, 0, 0, 0⟩⟩
    waitq := fun _ => ⟨.ddcbFree, none, none, 0, false, 0⟩
    ddcbSeqnum := 0
    ddcbOut := 0
    ddcbIn := 0
    freeSem := 0
    polling := polling
    tout := tout }

/- A command without parameters. -/
def staticCmd : DdcbCmd :=
  ⟨0, 0, 0, 0, 0, 0, 0, 0, 0, 0, 0, [], 0, []⟩

/- Handles just opened, and such commands. -/
def staticInit (polling : Bool) (tout : Int) : System H :=
  systemInit (staticCtx polling tout) (fun _ => ⟨0, 0⟩)
    (fun _ => staticCmd)

/- Take the actions one after the other. -/
def runActions
    (s : System H) :
    List (Action H) → Option (List (Event H) × System H)
  | [] => some ([], s)
  | action :: rest => do
      let (event, s') ← systemStep s action
      let (trace, s'') ← runActions s' rest
      some (event :: trace, s'')

/- Actions that can be taken are a run. -/
theorem Run.of_runActions
    {s₀ s s' : System H} {past trace : List (Event H)}
    {actions : List (Action H)}
    (hRun : Run System.Next s₀ past s)
    (hActions : runActions s actions = some (trace, s')) :
    Run System.Next s₀ (past ++ trace) s' := by
  induction actions generalizing s past trace with
  | nil =>
      cases hActions
      rw [List.append_nil]
      exact hRun
  | cons action rest ih =>
      simp only [runActions, Option.bind_eq_bind,
        Option.bind_eq_some_iff] at hActions
      rcases hActions with
        ⟨⟨event, s₁⟩, hStep, ⟨later, s₂⟩, hRest, hOut⟩
      cases hOut
      rw [List.append_cons]
      exact ih (hRun.next ⟨action, hStep⟩) hRest

/-
  What a list of actions does after the start, empty if one
  of the actions is not possible.
-/
def traceOf
    (tout : Int)
    (actions : List (Action H)) : List (Event H) :=
  ((runActions (staticInit false tout)
    actions).map Prod.fst).getD []

/- Actions that are possible are those of a run. -/
theorem run_of_actions
    {tout : Int} {actions : List (Action H)}
    (hSome :
      (runActions (staticInit false tout)
        actions).isSome = true) :
    ∃ s : System H,
      Run System.Next (staticInit false tout)
        (traceOf tout actions) s := by
  rcases Option.isSome_iff_exists.mp hSome with
    ⟨⟨trace, s⟩, hOut⟩
  have hRun := Run.of_runActions Run.start hOut
  rw [List.nil_append] at hRun
  have hTrace : traceOf tout actions = trace := by
    unfold traceOf
    rw [hOut]
    rfl
  rw [hTrace]
  exact ⟨s, hRun⟩

theorem SystemRun.of_actions
    {tout : Int} {actions : List (Action H)}
    (hSome :
      (runActions (staticInit false tout)
        actions).isSome = true) :
    ∃ s : System H, SystemRun (traceOf tout actions) s := by
  rcases run_of_actions hSome with ⟨s, hRun⟩
  exact ⟨s, _, _, _, hRun⟩

------------------------------------------------------------
-- What a Trace Tells
------------------------------------------------------------

/-
  One call of `__ddcb_execute_multi`: its chain, what was
  completed for the handle since, and what it returned.
-/
structure CallLog (H : Type) where
  chain : List Nat
  completions : List (Completion H)
  returned : List Int
  deriving DecidableEq, Repr

/- The commands of the call whose results were copied. -/
def CallLog.copied (log : CallLog H) : List Nat :=
  log.completions.map fun c => c.job.cmd

/- How often the handle was posted since the call. -/
def CallLog.posts (log : CallLog H) : Nat :=
  (log.completions.map fun c => c.posted).count true

/- The log of the last call of `ttx`, one event later. -/
def CallLog.after
    (ttx : H)
    (log : Option (CallLog H)) :
    Event H → Option (CallLog H)
  | .called ttx' chain =>
      if ttx' = ttx then some ⟨chain, [], []⟩ else log
  | .posted (.completed c) =>
      if c.job.ttx = ttx then
        log.map fun l =>
          { l with completions := l.completions ++ [c] }
      else log
  | .returned ttx' rc =>
      if ttx' = ttx then
        log.map fun l =>
          { l with returned := l.returned ++ [rc] }
      else log
  | _ => log

/- The last call of `ttx` in the trace. -/
def callLog
    (ttx : H)
    (trace : List (Event H)) : Option (CallLog H) :=
  trace.foldl (CallLog.after ttx) none

theorem callLog_append
    (ttx : H)
    (trace : List (Event H))
    (event : Event H) :
    callLog ttx (trace ++ [event]) =
      CallLog.after ttx (callLog ttx trace) event := by
  unfold callLog
  rw [List.foldl_append]
  rfl

end Steps

end Capi
