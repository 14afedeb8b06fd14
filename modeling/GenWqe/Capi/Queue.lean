import GenWqe.Lib.Ring
import GenWqe.Capi.System

/-
  The invariant of the DDCB queue over whole runs: the ring
  is a queue of commands, the free slots are accounted for,
  and every caller is posted once, behind its last command.

  Key definitions include:
    * `Entry` and `DevCtx.entry`
    * `System.inFlight` and `slotsAcquired`
    * `CallOk` and `QueueInv`

  Main results:
    * `queueInv_step`
    * `queueInv_of_run`
-/

namespace Capi

------------------------------------------------------------
-- The Ring as a Queue
------------------------------------------------------------

/- A command in the queue, and whether its caller waits. -/
structure Entry (H : Type) where
  job : Job H
  threadWait : Bool
  deriving DecidableEq, Repr

section Entries

variable {H : Type}

/- What an entry of the wait queue holds. -/
def TxWaitq.entry (txq : TxWaitq H) : Option (Entry H) :=
  if txq.status = .ddcbIn then
    match txq.cmd, txq.ttx with
    | some cmd, some ttx =>
        some ⟨⟨ttx, cmd, txq.seqnum⟩, txq.threadWait⟩
    | _, _ => none
  else
    none

def DevCtx.entry (ctx : DevCtx H) (i : Nat) :
    Option (Entry H) :=
  (ctx.waitq i).entry

theorem TxWaitq.status_of_entry
    {txq : TxWaitq H}
    (hSome : txq.entry ≠ none) :
    txq.status = .ddcbIn := by
  unfold TxWaitq.entry at hSome
  by_contra hStatus
  rw [if_neg hStatus] at hSome
  exact hSome rfl

theorem TxWaitq.entry_eq
    {txq : TxWaitq H}
    {cmd : Nat} {ttx : H}
    (hStatus : txq.status = .ddcbIn)
    (hCmd : txq.cmd = some cmd)
    (hTtx : txq.ttx = some ttx) :
    txq.entry =
      some ⟨⟨ttx, cmd, txq.seqnum⟩, txq.threadWait⟩ := by
  unfold TxWaitq.entry
  rw [if_pos hStatus, hCmd, hTtx]

/-
  Every slot that is in the queue is whole, every other one
  is not marked as waited for.
-/
structure SlotOk (txq : TxWaitq H) : Prop where
  whole : txq.status = .ddcbIn → txq.entry ≠ none
  marked : txq.status ≠ .ddcbIn → txq.threadWait = false

theorem SlotOk.status_iff
    {txq : TxWaitq H}
    (hSlot : SlotOk txq) :
    txq.status = .ddcbIn ↔ txq.entry ≠ none :=
  ⟨hSlot.whole, TxWaitq.status_of_entry⟩

/- Filling a slot that is free. -/
theorem TxWaitq.entry_fill
    {txq : TxWaitq H}
    (hSlot : SlotOk txq)
    (hFree : txq.entry = none)
    (ttx : H) (myCmd : Nat) (seq : UInt16)
    (now : UInt64) (last : Bool) :
    (txq.fill ttx myCmd seq now last).entry =
      some ⟨⟨ttx, myCmd, seq⟩, last⟩ := by
  have hStatus : txq.status ≠ .ddcbIn :=
    fun hIn => hSlot.whole hIn hFree
  have hMark := hSlot.marked hStatus
  cases last with
  | true => rfl
  | false =>
      unfold TxWaitq.fill
      rw [hMark]
      rfl

theorem DevCtx.entry_execute
    {ctx : DevCtx H}
    (hSlot : SlotOk (ctx.waitq ctx.ddcbIn))
    (hFree : ctx.entry ctx.ddcbIn = none)
    (ttx : H) (myCmd : Nat) (cmd : DdcbCmd)
    (last : Bool) (now : UInt64) :
    (ddcbExecuteSection ctx ttx myCmd cmd last now).entry =
      Function.update ctx.entry ctx.ddcbIn
        (some ⟨⟨ttx, myCmd, ctx.ddcbSeqnum⟩, last⟩) := by
  funext i
  unfold DevCtx.entry ddcbExecuteSection
  by_cases hSame : i = ctx.ddcbIn
  · subst hSame
    simp only [Function.update_self]
    exact TxWaitq.entry_fill hSlot hFree _ _ _ _ _
  · simp only [Function.update_of_ne hSame]

theorem DevCtx.entry_release
    (ctx : DevCtx H) :
    ctx.release.entry =
      Function.update ctx.entry ctx.ddcbOut none := by
  funext i
  unfold DevCtx.entry DevCtx.release
  by_cases hSame : i = ctx.ddcbOut
  · subst hSame
    simp only [Function.update_self]
    rfl
  · simp only [Function.update_of_ne hSame]

/- Both sections leave every slot in order. -/
theorem slotOk_execute
    {ctx : DevCtx H} {i : Nat}
    (hSlot : SlotOk (ctx.waitq i))
    (ttx : H) (myCmd : Nat) (cmd : DdcbCmd)
    (last : Bool) (now : UInt64) :
    SlotOk
      ((ddcbExecuteSection ctx ttx myCmd cmd last
        now).waitq i) := by
  unfold ddcbExecuteSection
  by_cases hSame : i = ctx.ddcbIn
  · subst hSame
    simp only [Function.update_self]
    exact ⟨fun _ h => (nomatch h), fun h => absurd rfl h⟩
  · simp only [Function.update_of_ne hSame]
    exact hSlot

theorem slotOk_release
    {ctx : DevCtx H} {i : Nat}
    (hSlot : SlotOk (ctx.waitq i)) :
    SlotOk (ctx.release.waitq i) := by
  unfold DevCtx.release
  by_cases hSame : i = ctx.ddcbOut
  · subst hSame
    simp only [Function.update_self]
    exact ⟨fun h => (nomatch h), fun _ => rfl⟩
  · simp only [Function.update_of_ne hSame]
    exact hSlot

section Handles

variable [DecidableEq H]

/- The entries of one handle. -/
def entriesOf (ttx : H) (queue : List (Entry H)) :
    List (Entry H) :=
  queue.filter fun e => e.job.ttx = ttx

/- Adding and removing entries, seen by each handle. -/
theorem entriesOf_append
    (ttx : H)
    (queue : List (Entry H))
    (e : Entry H) :
    entriesOf ttx (queue ++ [e]) =
      entriesOf ttx queue ++
        (if e.job.ttx = ttx then [e] else []) := by
  unfold entriesOf
  rw [List.filter_append]
  by_cases hTtx : e.job.ttx = ttx <;> simp [hTtx]

theorem entriesOf_cons
    (ttx : H)
    (queue : List (Entry H))
    (e : Entry H) :
    entriesOf ttx (e :: queue) =
      if e.job.ttx = ttx then e :: entriesOf ttx queue
      else entriesOf ttx queue := by
  unfold entriesOf
  by_cases hTtx : e.job.ttx = ttx <;> simp [hTtx]

end Handles

------------------------------------------------------------
-- Free Slots
------------------------------------------------------------

/- The handle has a slot it has not yet filled. -/
def Caller.holdsSlot : Caller → Bool
  | .filling _ acquired => acquired
  | _ => false

/- The number of slots in state `DDCB_IN`. -/
def System.inFlight (s : System H) : Nat :=
  ((Finset.range numDdcbs).filter fun i =>
    (s.mem.ctx.waitq i).status = .ddcbIn).card

variable [Fintype H]

/- The slots acquired but not yet filled. -/
def slotsAcquired (callers : H → Caller) : Nat :=
  (Finset.univ.filter fun ttx =>
    (callers ttx).holdsSlot = true).card

theorem one_le_slotsAcquired
    {callers : H → Caller} {ttx : H}
    (hHolds : (callers ttx).holdsSlot = true) :
    1 ≤ slotsAcquired callers :=
  Finset.card_pos.mpr ⟨ttx, by simp [hHolds]⟩

variable [DecidableEq H]

theorem slotsAcquired_take
    {callers : H → Caller} {ttx : H} {caller : Caller}
    (hOld : (callers ttx).holdsSlot = false)
    (hNew : caller.holdsSlot = true) :
    slotsAcquired (Function.update callers ttx caller) =
      slotsAcquired callers + 1 := by
  unfold slotsAcquired
  have hInsert :
      (Finset.univ.filter fun h =>
        (Function.update callers ttx caller
          h).holdsSlot = true) =
        insert ttx (Finset.univ.filter fun h =>
          (callers h).holdsSlot = true) := by
    ext h
    by_cases hSame : h = ttx
    · subst hSame
      simp [hNew]
    · simp [hSame]
  rw [hInsert, Finset.card_insert_of_notMem (by simp [hOld])]

theorem slotsAcquired_give
    {callers : H → Caller} {ttx : H} {caller : Caller}
    (hOld : (callers ttx).holdsSlot = true)
    (hNew : caller.holdsSlot = false) :
    slotsAcquired (Function.update callers ttx caller) + 1 =
      slotsAcquired callers := by
  have hFree :
      (Function.update callers ttx caller ttx).holdsSlot =
        false := by
    rw [Function.update_self]
    exact hNew
  have hBack := slotsAcquired_take hFree hOld
  rw [Function.update_idem, Function.update_eq_self] at hBack
  exact hBack.symm

theorem slotsAcquired_same
    {callers : H → Caller} {ttx : H} {caller : Caller}
    (hSame :
      caller.holdsSlot = (callers ttx).holdsSlot) :
    slotsAcquired (Function.update callers ttx caller) =
      slotsAcquired callers := by
  unfold slotsAcquired
  congr 1
  ext h
  by_cases hEq : h = ttx
  · subst hEq
    simp [hSame]
  · simp [hEq]

end Entries

------------------------------------------------------------
-- The Call of a Handle
------------------------------------------------------------

/-
  The marks of a chain: only its last command is one that the
  caller waits for.
-/
def waitMarks : List Nat → List Bool
  | [] => []
  | _ :: rest => rest.isEmpty :: waitMarks rest

/- A part of the marks holds the one mark if it is whole. -/
theorem count_take_waitMarks
    {chain : List Nat}
    (hChain : chain ≠ [])
    {k : Nat}
    (hLe : k ≤ chain.length) :
    ((waitMarks chain).take k).count true =
      if k = chain.length then 1 else 0 := by
  induction chain generalizing k with
  | nil => exact absurd rfl hChain
  | cons cmd rest ih =>
      cases k with
      | zero => rfl
      | succ k =>
          rw [List.length_cons] at hLe
          rw [waitMarks, List.take_succ_cons,
            List.count_cons, List.length_cons]
          cases rest with
          | nil =>
              have hZero : k = 0 := by simpa using hLe
              subst hZero
              rfl
          | cons cmd' rest =>
              rw [ih (List.cons_ne_nil _ _)
                (Nat.le_of_succ_le_succ hLe)]
              simp

section Calls

variable {H : Type}

/-
  The state of the last call of a handle, with its entries in
  the queue and the commands it has still to submit.
-/
structure CallOk
    (ttxs : Ttxs)
    (log : CallLog H)
    (entries : List (Entry H))
    (rest : List Nat) : Prop where
  chain_ne : log.chain ≠ []
  chain :
    log.chain =
      log.copied ++ entries.map (fun e => e.job.cmd) ++ rest
  marks :
    log.completions.map (fun c => c.posted) ++
        entries.map (fun e => e.threadWait) ++
        waitMarks rest =
      waitMarks log.chain
  sem : ttxs.waitSem + log.returned.length = log.posts
  stored :
    ∀ c, log.completions.getLast? = some c →
      ttxs.complCode = c.complCode
  codes :
    ∀ rc ∈ log.returned, ∃ c,
      log.completions.getLast? = some c ∧ rc = c.complCode

variable {ttxs : Ttxs} {log : CallLog H}
variable {entries : List (Entry H)} {rest : List Nat}

namespace CallOk

theorem copied_prefix
    (hCall : CallOk ttxs log entries rest) :
    log.copied <+: log.chain := by
  rw [hCall.chain, List.append_assoc]
  exact List.prefix_append _ _

/- The handle is posted once, behind the last command. -/
theorem posts_eq
    (hCall : CallOk ttxs log entries rest) :
    log.posts =
      if log.copied.length = log.chain.length then 1
      else 0 := by
  have hTake :
      log.completions.map (fun c => c.posted) =
        (waitMarks log.chain).take log.copied.length := by
    rw [← hCall.marks, List.append_assoc]
    unfold CallLog.copied
    rw [List.length_map]
    exact (List.take_left' (List.length_map _)).symm
  unfold CallLog.posts
  rw [hTake]
  exact count_take_waitMarks hCall.chain_ne
    hCall.copied_prefix.length_le

theorem posted_once
    (hCall : CallOk ttxs log entries rest) :
    log.copied <+: log.chain ∧
      log.posts =
        (if log.copied = log.chain then 1 else 0) ∧
      log.returned.length ≤ log.posts := by
  have hPrefix := hCall.copied_prefix
  have hIff :
      log.copied = log.chain ↔
        log.copied.length = log.chain.length :=
    ⟨congrArg List.length, hPrefix.eq_of_length⟩
  have hSem := hCall.sem
  refine ⟨hPrefix, ?_, by omega⟩
  rw [hCall.posts_eq]
  exact if_congr hIff.symm rfl rfl

/- While an entry is queued nobody was posted. -/
theorem posts_of_entry
    {e : Entry H}
    (hCall : CallOk ttxs log (e :: entries) rest) :
    log.posts = 0 := by
  have hLength := congrArg List.length hCall.chain
  simp only [List.length_append, List.length_map,
    List.length_cons] at hLength
  rw [hCall.posts_eq, if_neg (by omega)]

/- A call is through when the handle is posted. -/
theorem of_posted
    (hCall : CallOk ttxs log entries rest)
    (hPosted : ttxs.waitSem ≠ 0) :
    ttxs.waitSem = 1 ∧ log.returned = [] ∧
      entries = [] ∧ rest = [] := by
  have hSem := hCall.sem
  have hPosts := hCall.posts_eq
  have hLength := congrArg List.length hCall.chain
  simp only [List.length_append, List.length_map]
    at hLength
  split at hPosts
  · refine ⟨by omega, List.length_eq_zero_iff.mp (by omega),
      List.length_eq_zero_iff.mp (by omega),
      List.length_eq_zero_iff.mp (by omega)⟩
  · omega

/- The call has just begun. -/
theorem begin
    {chain : List Nat}
    (hChain : chain ≠ [])
    (hSem : ttxs.waitSem = 0) :
    CallOk ttxs (⟨chain, [], []⟩ : CallLog H) [] chain where
  chain_ne := hChain
  chain := rfl
  marks := rfl
  sem := hSem
  stored := fun _ h => nomatch h
  codes := fun _ h => nomatch h

/- One more command is in the queue. -/
theorem submit
    {cmd : Nat} {ttx : H} {seq : UInt16}
    (hCall : CallOk ttxs log entries (cmd :: rest)) :
    CallOk ttxs log
      (entries ++ [⟨⟨ttx, cmd, seq⟩, rest.isEmpty⟩])
      rest where
  chain_ne := hCall.chain_ne
  chain := by
    rw [hCall.chain]
    simp
  marks := by
    rw [← hCall.marks]
    simp [waitMarks]
  sem := hCall.sem
  stored := hCall.stored
  codes := hCall.codes

/- The first command of the handle is completed. -/
theorem complete
    {e : Entry H}
    (hCall : CallOk ttxs log (e :: entries) rest)
    {c : Completion H}
    (hJob : c.job = e.job)
    (hPosted : c.posted = e.threadWait) :
    CallOk (ttxs.complete c.complCode c.posted)
      { log with completions := log.completions ++ [c] }
      entries rest where
  chain_ne := hCall.chain_ne
  chain := by
    unfold CallLog.copied
    rw [hCall.chain]
    simp [CallLog.copied, hJob]
  marks := by
    rw [← hCall.marks]
    simp [hPosted]
  sem := by
    have hSem := hCall.sem
    unfold CallLog.posts at *
    unfold Ttxs.complete
    simp only [List.map_append, List.count_append,
      List.map_cons, List.map_nil]
    cases c.posted with
    | true =>
        rw [List.count_singleton_self, if_pos rfl]
        omega
    | false =>
        rw [if_neg (by decide)]
        exact hSem
  stored := by
    intro c' hLast
    rw [List.getLast?_concat] at hLast
    cases hLast
    rfl
  codes := by
    intro rc hMem
    have hSem := hCall.sem
    rw [hCall.posts_of_entry] at hSem
    have hNone : log.returned = [] :=
      List.length_eq_zero_iff.mp (by omega)
    rw [hNone] at hMem
    exact nomatch hMem

/- The call returns with the code stored last. -/
theorem finish
    (hCall : CallOk ttxs log entries rest)
    (hPosted : ttxs.waitSem ≠ 0) :
    CallOk { ttxs with waitSem := ttxs.waitSem - 1 }
      { log with
        returned := log.returned ++ [ttxs.complCode] }
      entries rest where
  chain_ne := hCall.chain_ne
  chain := hCall.chain
  marks := hCall.marks
  sem := by
    have hSem := hCall.sem
    rw [List.length_append, List.length_singleton]
    change ttxs.waitSem - 1 + (log.returned.length + 1) =
      log.posts
    omega
  stored := hCall.stored
  codes := by
    intro rc hMem
    rcases hCall.of_posted hPosted with
      ⟨hOne, hNone, hEntries, hRest⟩
    have hLength := congrArg List.length hCall.chain
    rw [hEntries, hRest] at hLength
    simp only [CallLog.copied, List.map_nil,
      List.append_nil, List.length_map] at hLength
    have hSome : log.completions ≠ [] := by
      intro hNil
      rw [hNil] at hLength
      exact hCall.chain_ne (List.length_eq_zero_iff.mp hLength)
    rw [hNone, List.nil_append, List.mem_singleton] at hMem
    have hLast := List.getLast?_eq_some_getLast hSome
    exact ⟨_, hLast, hMem.trans (hCall.stored _ hLast)⟩

end CallOk

end Calls

------------------------------------------------------------
-- The Invariant
------------------------------------------------------------

/- The commands that a caller has still to submit. -/
def Caller.rest : Caller → List Nat
  | .filling rest _ => rest
  | _ => []

section Invariant

variable {H : Type}

/- One handle, its last call and its entries. -/
structure CallerOk
    (caller : Caller)
    (ttxs : Ttxs)
    (log : Option (CallLog H))
    (entries : List (Entry H)) : Prop where
  idle :
    caller = .idle → entries = [] ∧ ttxs.waitSem = 0
  filling :
    ∀ rest acquired,
      caller = .filling rest acquired → rest ≠ []
  logged : caller ≠ .idle → log ≠ none
  call :
    ∀ l, log = some l → CallOk ttxs l entries caller.rest

namespace CallerOk

variable {ttxs : Ttxs} {log : Option (CallLog H)}
variable {entries : List (Entry H)}

/- The handle begins a call. -/
theorem begin
    (hCaller : CallerOk .idle ttxs log entries)
    {chain : List Nat}
    (hChain : chain ≠ []) :
    CallerOk (.filling chain false) ttxs
      (some ⟨chain, [], []⟩) entries where
  idle := fun h => nomatch h
  filling := by
    intro rest acquired hEq
    cases hEq
    exact hChain
  logged := fun _ h => nomatch h
  call := by
    intro l hLog
    cases hLog
    rw [(hCaller.idle rfl).1]
    exact CallOk.begin hChain (hCaller.idle rfl).2

/- The handle has a free slot. -/
theorem acquire
    {rest : List Nat}
    (hCaller :
      CallerOk (.filling rest false) ttxs log entries) :
    CallerOk (.filling rest true) ttxs log entries where
  idle := fun h => nomatch h
  filling := by
    intro rest' acquired hEq
    cases hEq
    exact hCaller.filling rest false rfl
  logged := fun _ => hCaller.logged (fun h => nomatch h)
  call := hCaller.call

/- The handle fills the slot. -/
theorem submit
    {cmd : Nat} {rest : List Nat} {acquired : Bool}
    {ttx : H} {seq : UInt16}
    (hCaller :
      CallerOk (.filling (cmd :: rest) acquired) ttxs log
        entries) :
    CallerOk (.behind rest) ttxs log
      (entries ++ [⟨⟨ttx, cmd, seq⟩, rest.isEmpty⟩]) := by
  have hLogged := hCaller.logged (fun h => nomatch h)
  cases rest with
  | nil =>
      exact ⟨fun h => (nomatch h), fun _ _ h => (nomatch h),
        fun _ => hLogged,
        fun l hLog => (hCaller.call l hLog).submit⟩
  | cons cmd' rest =>
      refine ⟨fun h => (nomatch h), ?_, fun _ => hLogged,
        fun l hLog => (hCaller.call l hLog).submit⟩
      intro rest' acquired' hEq
      cases hEq
      exact List.cons_ne_nil _ _

/- The call of the handle returns. -/
theorem finish
    (hCaller : CallerOk .waiting ttxs log entries)
    (hPosted : ttxs.waitSem ≠ 0) :
    CallerOk .idle
      { ttxs with waitSem := ttxs.waitSem - 1 }
      (log.map fun l =>
        { l with
          returned := l.returned ++ [ttxs.complCode] })
      entries := by
  cases hLog : log with
  | none =>
      exact absurd hLog
        (hCaller.logged (fun h => nomatch h))
  | some l =>
      have hCall := hCaller.call l hLog
      rcases hCall.of_posted hPosted with
        ⟨hOne, -, hEntries, -⟩
      refine ⟨fun _ => ⟨hEntries, ?_⟩,
        fun _ _ h => (nomatch h), fun h => absurd rfl h, ?_⟩
      · change ttxs.waitSem - 1 = 0
        omega
      · intro l' hEq
        cases hEq
        exact hCall.finish hPosted

/- The first entry of the handle is completed. -/
theorem complete
    {caller : Caller} {e : Entry H}
    (hCaller : CallerOk caller ttxs log (e :: entries))
    {c : Completion H}
    (hJob : c.job = e.job)
    (hPosted : c.posted = e.threadWait) :
    CallerOk caller (ttxs.complete c.complCode c.posted)
      (log.map fun l =>
        { l with completions := l.completions ++ [c] })
      entries := by
  refine ⟨fun hIdle => ?_, hCaller.filling,
    fun hBusy hNone => ?_, fun l hEq => ?_⟩
  · exact nomatch (hCaller.idle hIdle).1
  · exact hCaller.logged hBusy (Option.map_eq_none_iff.mp hNone)
  · rcases Option.map_eq_some_iff.mp hEq with
      ⟨l', hLog, rfl⟩
    exact (hCaller.call l' hLog).complete hJob hPosted

end CallerOk

variable [DecidableEq H] [Fintype H]

/-
  The invariant: `queue` is what the ring holds, and the
  trace is accounted for.
-/
structure QueueInv
    (trace : List (Event H))
    (s : System H)
    (queue : List (Entry H)) : Prop where
  ring :
    RingQueue numDdcbs s.mem.ctx.ddcbOut s.mem.ctx.ddcbIn
      s.mem.ctx.entry queue
  slots :
    ∀ i < numDdcbs, SlotOk (s.mem.ctx.waitq i)
  free :
    s.mem.ctx.freeSem + slotsAcquired s.callers +
      queue.length = numDdcbs
  jobs :
    submittedJobs trace =
      (completions trace).map (fun c => c.job) ++
        queue.map (fun e => e.job)
  callers :
    ∀ ttx,
      CallerOk (s.callers ttx) (s.mem.ttxs ttx)
        (callLog ttx trace) (entriesOf ttx queue)

theorem queueInv_init
    (ctx : DevCtx H)
    (ttxs : H → Ttxs)
    (cmds : Nat → DdcbCmd) :
    QueueInv [] (systemInit ctx ttxs cmds) [] := by
  have hFree :
      ∀ i < numDdcbs,
        (setupWaitq ctx.waitq i).status = .ddcbFree := by
    intro i hLt
    unfold setupWaitq
    rw [if_pos hLt]
  refine ⟨?_, ?_, ?_, rfl, ?_⟩
  · refine RingQueue.empty (by decide) ?_
    intro i hLt
    change (setupWaitq ctx.waitq i).entry = none
    unfold TxWaitq.entry
    rw [hFree i hLt, if_neg (by decide)]
  · intro i hLt
    change SlotOk (setupWaitq ctx.waitq i)
    refine ⟨fun hIn => ?_, fun _ => ?_⟩
    · rw [hFree i hLt] at hIn
      exact nomatch hIn
    · unfold setupWaitq
      rw [if_pos hLt]
  · have hNone :
        slotsAcquired (fun _ : H => Caller.idle) = 0 := by
      simp [slotsAcquired, Caller.holdsSlot]
    change numDdcbs +
      slotsAcquired (fun _ : H => Caller.idle) + 0 = numDdcbs
    rw [hNone]
    rfl
  · intro ttx
    exact ⟨fun _ => ⟨rfl, rfl⟩, fun _ _ h => (nomatch h),
      fun h => absurd rfl h, fun _ h => nomatch h⟩

variable {trace : List (Event H)} {s s' : System H}
variable {queue : List (Entry H)}

/- A free slot is left while one is acquired. -/
theorem QueueInv.room
    (hInv : QueueInv trace s queue)
    {ttx : H}
    (hHolds : (s.callers ttx).holdsSlot = true) :
    queue.length < numDdcbs := by
  have hFree := hInv.free
  have hOne := one_le_slotsAcquired hHolds
  omega

/- The number of occupied slots is that of the entries. -/
theorem QueueInv.inFlight_eq
    (hInv : QueueInv trace s queue) :
    s.inFlight = queue.length := by
  rw [← hInv.ring.card_occupied]
  unfold System.inFlight
  congr 1
  apply Finset.filter_congr
  intro i hMem
  have hSlot := hInv.slots i (Finset.mem_range.mp hMem)
  exact hSlot.status_iff.trans
    Option.isSome_iff_ne_none.symm

/- Steps that neither queue nor complete a command. -/
theorem QueueInv.keep
    (hInv : QueueInv trace s queue)
    {event : Event H}
    (hOut : s'.mem.ctx.ddcbOut = s.mem.ctx.ddcbOut)
    (hIn : s'.mem.ctx.ddcbIn = s.mem.ctx.ddcbIn)
    (hWaitq : s'.mem.ctx.waitq = s.mem.ctx.waitq)
    (hFree :
      s'.mem.ctx.freeSem + slotsAcquired s'.callers =
        s.mem.ctx.freeSem + slotsAcquired s.callers)
    (hJob : event.job = none)
    (hDone : event.completion = none)
    (hCallers :
      ∀ ttx,
        CallerOk (s'.callers ttx) (s'.mem.ttxs ttx)
          (CallLog.after ttx (callLog ttx trace) event)
          (entriesOf ttx queue)) :
    QueueInv (trace ++ [event]) s' queue where
  ring := by
    have hEntry : s'.mem.ctx.entry = s.mem.ctx.entry := by
      funext i
      unfold DevCtx.entry
      rw [hWaitq]
    rw [hOut, hIn, hEntry]
    exact hInv.ring
  slots := by
    rw [hWaitq]
    exact hInv.slots
  free := by
    rw [hFree]
    exact hInv.free
  jobs := by
    rw [submittedJobs_append, completions_append, hJob,
      hDone]
    simpa using hInv.jobs
  callers := by
    intro ttx
    rw [callLog_append]
    exact hCallers ttx

/- A caller fills its slot. -/
theorem QueueInv.submit
    (hInv : QueueInv trace s queue)
    {ttx : H} {cmd : Nat} {rest : List Nat}
    (hCaller : s.callers ttx = .filling (cmd :: rest) true)
    (now : UInt64) :
    QueueInv
      (trace ++
        [.submitted ⟨ttx, cmd, s.mem.ctx.ddcbSeqnum⟩])
      (s.submit ttx cmd rest now)
      (queue ++
        [⟨⟨ttx, cmd, s.mem.ctx.ddcbSeqnum⟩,
          rest.isEmpty⟩]) := by
  have hHolds : (s.callers ttx).holdsSlot = true := by
    rw [hCaller]
    rfl
  have hRoom := hInv.room hHolds
  have hEmpty := hInv.ring.free_at_input hRoom
  have hSlot := hInv.slots _ hInv.ring.inn_lt
  refine ⟨?_, ?_, ?_, ?_, ?_⟩
  · have hEntry :=
      DevCtx.entry_execute hSlot hEmpty ttx cmd
        (s.mem.cmds cmd) rest.isEmpty now
    change RingQueue numDdcbs s.mem.ctx.ddcbOut
      ((s.mem.ctx.ddcbIn + 1) % numDdcbs)
      (ddcbExecuteSection s.mem.ctx ttx cmd
        (s.mem.cmds cmd) rest.isEmpty now).entry _
    rw [hEntry]
    exact hInv.ring.push hRoom _
  · intro i hLt
    exact slotOk_execute (hInv.slots i hLt) _ _ _ _ _
  · have hGive :
        slotsAcquired
            (Function.update s.callers ttx
              (.behind rest)) + 1 =
          slotsAcquired s.callers :=
      slotsAcquired_give hHolds (by cases rest <;> rfl)
    have hFree := hInv.free
    rw [List.length_append, List.length_singleton]
    change s.mem.ctx.freeSem +
      slotsAcquired
        (Function.update s.callers ttx (.behind rest)) +
      (queue.length + 1) = numDdcbs
    omega
  · rw [submittedJobs_append, completions_append,
      hInv.jobs]
    simp [Event.job, Event.completion]
  · intro h
    rw [callLog_append, entriesOf_append]
    change CallerOk (Function.update s.callers ttx _ h)
      (s.mem.ttxs h) (callLog h trace) _
    by_cases hSame : ttx = h
    · subst hSame
      have hOld := hInv.callers ttx
      rw [hCaller] at hOld
      rw [Function.update_self, if_pos rfl]
      exact hOld.submit
    · rw [Function.update_of_ne (Ne.symm hSame),
        if_neg hSame, List.append_nil]
      exact hInv.callers h

/- The slot that is completed holds the head of the queue. -/
theorem QueueInv.head
    (hInv : QueueInv trace s queue)
    {cmd : Nat} {ttx : H}
    (hStatus :
      (s.mem.ctx.waitq s.mem.ctx.ddcbOut).status = .ddcbIn)
    (hCmd :
      (s.mem.ctx.waitq s.mem.ctx.ddcbOut).cmd = some cmd)
    (hTtx :
      (s.mem.ctx.waitq s.mem.ctx.ddcbOut).ttx = some ttx) :
    ∃ rest,
      queue =
        ⟨⟨ttx, cmd,
            (s.mem.ctx.waitq s.mem.ctx.ddcbOut).seqnum⟩,
          (s.mem.ctx.waitq
            s.mem.ctx.ddcbOut).threadWait⟩ :: rest := by
  have hHead := hInv.ring.at_output
  have hEntry := TxWaitq.entry_eq hStatus hCmd hTtx
  unfold DevCtx.entry at hHead
  rw [hEntry] at hHead
  exact ⟨queue.tail,
    List.eq_cons_of_mem_head? hHead.symm⟩

/- The done thread completes the head of the queue. -/
theorem QueueInv.complete
    {e : Entry H}
    (hInv : QueueInv trace s (e :: queue))
    {c : Completion H} {mem : Driver H}
    (hJob : c.job = e.job)
    (hPosted : c.posted = e.threadWait)
    (hCtx : mem.ctx = s.mem.ctx.release)
    (hTtxs :
      mem.ttxs =
        Function.update s.mem.ttxs c.job.ttx
          ((s.mem.ttxs c.job.ttx).complete c.complCode
            c.posted))
    (thread : DoneThread) :
    QueueInv (trace ++ [.posted (.completed c)])
      { s with mem := mem, thread := thread } queue := by
  refine ⟨?_, ?_, ?_, ?_, ?_⟩
  · change RingQueue numDdcbs mem.ctx.ddcbOut mem.ctx.ddcbIn
      mem.ctx.entry queue
    rw [hCtx, DevCtx.entry_release]
    exact hInv.ring.pop
  · intro i hLt
    change SlotOk (mem.ctx.waitq i)
    rw [hCtx]
    exact slotOk_release (hInv.slots i hLt)
  · have hFree := hInv.free
    rw [List.length_cons] at hFree
    change mem.ctx.freeSem + slotsAcquired s.callers +
      queue.length = numDdcbs
    rw [hCtx]
    change s.mem.ctx.freeSem + 1 + slotsAcquired s.callers +
      queue.length = numDdcbs
    omega
  · rw [submittedJobs_append, completions_append,
      hInv.jobs]
    simp [Event.job, Event.completion, hJob]
  · intro h
    have hOld := hInv.callers h
    rw [entriesOf_cons] at hOld
    rw [callLog_append]
    change CallerOk (s.callers h) (mem.ttxs h)
      (if c.job.ttx = h then _ else _) _
    rw [hTtxs]
    by_cases hSame : c.job.ttx = h
    · rw [← hJob, if_pos hSame] at hOld
      subst hSame
      rw [Function.update_self, if_pos rfl]
      exact hOld.complete hJob hPosted
    · rw [← hJob, if_neg hSame] at hOld
      rw [Function.update_of_ne (Ne.symm hSame),
        if_neg hSame]
      exact hOld

/- What the done thread does to the queue. -/
theorem QueueInv.post
    (hInv : QueueInv trace s queue)
    {complCode : Int}
    {result : PostResult H} {mem : Driver H}
    (hPost : DonePost s.mem complCode result mem) :
    ∃ queue',
      QueueInv (trace ++ [.posted result])
        { s with
          mem := mem
          thread := s.thread.after result.again } queue' := by
  cases hPost with
  | leave hResult =>
      refine ⟨queue, hInv.keep rfl rfl rfl rfl rfl ?_ ?_⟩
      · cases result with
        | completed c => exact absurd rfl (hResult c)
        | stop => rfl
        | cont => rfl
      · intro h
        cases result with
        | completed c => exact absurd rfl (hResult c)
        | stop => exact hInv.callers h
        | cont => exact hInv.callers h
  | complete hStatus hCmd hTtx _ hComplete =>
      rcases ddcbComplete_spec hCmd hTtx hComplete with
        ⟨hResult, hCtx, hTtxs, -⟩
      rcases hInv.head hStatus hCmd hTtx with ⟨rest, rfl⟩
      cases hResult
      exact ⟨rest,
        hInv.complete rfl rfl hCtx hTtxs _⟩

/- Every step keeps the invariant. -/
theorem queueInv_step
    (hInv : QueueInv trace s queue)
    {event : Event H}
    (hNext : s.Next event s') :
    ∃ queue', QueueInv (trace ++ [event]) s' queue' := by
  cases hNext.outcome with
  | refused =>
      exact ⟨queue,
        hInv.keep rfl rfl rfl rfl rfl rfl hInv.callers⟩
  | @called ttx chain hCaller hChain =>
      have hSame :
          (Caller.filling chain false).holdsSlot =
            (s.callers ttx).holdsSlot := by
        rw [hCaller]
        rfl
      refine ⟨queue, hInv.keep rfl rfl rfl ?_ rfl rfl ?_⟩
      · exact congrArg (s.mem.ctx.freeSem + ·)
          (slotsAcquired_same hSame)
      · intro h
        change CallerOk (Function.update s.callers ttx _ h)
          (s.mem.ttxs h) (if ttx = h then _ else _) _
        by_cases hEq : ttx = h
        · subst hEq
          have hOld := hInv.callers ttx
          rw [hCaller] at hOld
          rw [Function.update_self, if_pos rfl]
          exact hOld.begin hChain
        · rw [Function.update_of_ne (Ne.symm hEq),
            if_neg hEq]
          exact hInv.callers h
  | @acquired ttx rest hCaller hFree =>
      have hOld : (s.callers ttx).holdsSlot = false := by
        rw [hCaller]
        rfl
      have hTake :
          slotsAcquired (Function.update s.callers ttx
              (.filling rest true)) =
            slotsAcquired s.callers + 1 :=
        slotsAcquired_take hOld rfl
      refine ⟨queue, hInv.keep rfl rfl rfl ?_ rfl rfl ?_⟩
      · change s.mem.ctx.freeSem - 1 +
          slotsAcquired (Function.update s.callers ttx
            (.filling rest true)) = _
        omega
      · intro h
        change CallerOk (Function.update s.callers ttx _ h)
          (s.mem.ttxs h) (callLog h trace) _
        by_cases hEq : ttx = h
        · subst hEq
          have hPast := hInv.callers ttx
          rw [hCaller] at hPast
          rw [Function.update_self]
          exact hPast.acquire
        · rw [Function.update_of_ne (Ne.symm hEq)]
          exact hInv.callers h
  | submitted hCaller now =>
      exact ⟨_, hInv.submit hCaller now⟩
  | @returned ttx hCaller hPosted =>
      have hSame :
          Caller.idle.holdsSlot =
            (s.callers ttx).holdsSlot := by
        rw [hCaller]
        rfl
      refine ⟨queue, hInv.keep rfl rfl rfl ?_ rfl rfl ?_⟩
      · exact congrArg (s.mem.ctx.freeSem + ·)
          (slotsAcquired_same hSame)
      · intro h
        change CallerOk (Function.update s.callers ttx _ h)
          (Function.update s.mem.ttxs ttx _ h)
          (if ttx = h then _ else _) _
        by_cases hEq : ttx = h
        · subst hEq
          have hOld := hInv.callers ttx
          rw [hCaller] at hOld
          rw [Function.update_self, Function.update_self,
            if_pos rfl]
          exact hOld.finish hPosted
        · rw [Function.update_of_ne (Ne.symm hEq),
            Function.update_of_ne (Ne.symm hEq),
            if_neg hEq]
          exact hInv.callers h
  | written =>
      exact ⟨queue,
        hInv.keep rfl rfl rfl rfl rfl rfl hInv.callers⟩
  | woken =>
      exact ⟨queue,
        hInv.keep rfl rfl rfl rfl rfl rfl hInv.callers⟩
  | posted _ hPost =>
      exact hInv.post hPost

theorem queueInv_of_run
    (hRun : SystemRun trace s) :
    ∃ queue, QueueInv trace s queue := by
  rcases hRun with ⟨ctx, ttxs, cmds, hRun⟩
  exact hRun.invariant
    (fun trace s => ∃ queue, QueueInv trace s queue)
    ⟨[], queueInv_init ctx ttxs cmds⟩
    (fun _ _ _ _ ⟨_, hInv⟩ hNext =>
      queueInv_step hInv hNext)

end Invariant

end Capi
