import GenWqe.Capi.Queue

/-
  What the DDCB queue hands back: the memory of every command
  and the semaphore of every handle, over whole runs. Results
  are copied once, in the order of submission, and are those
  that the card wrote into the slot of the request.

  Key definitions include:
    * `DdcbCmd.withResult` and `memoryAfter`
    * `answerTo` and `Answered`
    * `ResultsInv`
    * `QueueSound`

  Main results:
    * `resultsInv_step`
    * `queue_sound`
-/

namespace Capi

------------------------------------------------------------
-- The Memory of the Commands
------------------------------------------------------------

/-
  A command with the results of a DDCB: as many bytes of ASV
  as it has asked for, and what the card says about the run.
  What the caller asks for stays.
-/
def DdcbCmd.withResult
    (cmd : DdcbCmd)
    (result : DdcbResult) : DdcbCmd where
  acfunc := cmd.acfunc
  cmd := cmd.cmd
  asivLength := cmd.asivLength
  asvLength := cmd.asvLength
  cmdopts := cmd.cmdopts
  retc := result.retc
  attn := result.attn
  vcrc := result.vcrc
  progress := result.progress
  dequeTs := result.dequeTs
  cmpltTs := result.cmpltTs
  asv :=
    result.asv.take cmd.asvLength.toNat ++
      cmd.asv.drop cmd.asvLength.toNat
  ats := cmd.ats
  asiv := cmd.asiv

theorem ddcb2Cmd_eq (ddcb : Ddcb) (cmd : DdcbCmd) :
    (ddcb2Cmd ddcb cmd).2 = cmd.withResult ddcb.result :=
  rfl

section Memory

variable {H : Type}

/- The memory of all commands behind some completions. -/
def memoryAfter
    (cmds : Nat → DdcbCmd)
    (done : List (Completion H)) : Nat → DdcbCmd :=
  done.foldl
    (fun mem c =>
      Function.update mem c.job.cmd
        ((mem c.job.cmd).withResult c.result))
    cmds

theorem memoryAfter_append
    (cmds : Nat → DdcbCmd)
    (done : List (Completion H))
    (c : Completion H) :
    memoryAfter cmds (done ++ [c]) =
      Function.update (memoryAfter cmds done) c.job.cmd
        ((memoryAfter cmds done c.job.cmd).withResult
          c.result) := by
  unfold memoryAfter
  rw [List.foldl_append]
  rfl

------------------------------------------------------------
-- What the Card Wrote
------------------------------------------------------------

/-
  The result that the card wrote last into the slot of the
  request with a number, since the request is in the queue.
-/
def answerAfter
    (seqnum : UInt16)
    (answer : Option DdcbResult) :
    Event H → Option DdcbResult
  | .submitted job =>
      if job.seqnum = seqnum then none else answer
  | .written result holds =>
      if holds = some seqnum then some result else answer
  | _ => answer

def answerTo
    (seqnum : UInt16)
    (trace : List (Event H)) : Option DdcbResult :=
  trace.foldl (answerAfter seqnum) none

theorem answerTo_append
    (seqnum : UInt16)
    (trace : List (Event H))
    (event : Event H) :
    answerTo seqnum (trace ++ [event]) =
      answerAfter seqnum (answerTo seqnum trace) event := by
  unfold answerTo
  rw [List.foldl_append]
  rfl

/- A slot shows that; before, it has no return code. -/
def Answered
    (answer : Option DdcbResult)
    (result : DdcbResult) : Prop :=
  match answer with
  | some written => result = written
  | none => result.retc = 0

------------------------------------------------------------
-- Numbers in the Queue
------------------------------------------------------------

/- The number of the request that was submitted as `k`-th. -/
def seqnumOf (k : Nat) : UInt16 := UInt16.ofNat (0xf00d + k)

theorem seqnumOf_succ (k : Nat) :
    seqnumOf k + 1 = seqnumOf (k + 1) := by
  unfold seqnumOf
  rw [← Nat.add_assoc, UInt16.ofNat_add (0xf00d + k) 1]
  rfl

theorem seqnumOf_inj
    {j k : Nat}
    (hSame : seqnumOf j = seqnumOf k) :
    j % 2 ^ 16 = k % 2 ^ 16 := by
  have hNat := congrArg UInt16.toNat hSame
  unfold seqnumOf at hNat
  rw [UInt16.toNat_ofNat', UInt16.toNat_ofNat'] at hNat
  omega

/- Requests are numbered in the order of submission. -/
def Numbered (jobs : List (Job H)) : Prop :=
  ∀ k job, jobs[k]? = some job → job.seqnum = seqnumOf k

theorem Numbered.append
    {jobs : List (Job H)} {job : Job H}
    (hJobs : Numbered jobs)
    (hNew : job.seqnum = seqnumOf jobs.length) :
    Numbered (jobs ++ [job]) := by
  intro k job' hGet
  rcases Nat.lt_or_ge k jobs.length with hLt | hGe
  · rw [List.getElem?_append_left hLt] at hGet
    exact hJobs k job' hGet
  · rw [List.getElem?_append_right hGe] at hGet
    rcases List.getElem?_eq_some_iff.mp hGet with
      ⟨hLen, hIs⟩
    have hLast : k = jobs.length := by
      rw [List.length_singleton] at hLen
      omega
    subst hLast
    simp only [Nat.sub_self, List.getElem_cons_zero] at hIs
    rw [← hIs]
    exact hNew

/- The number that a slot holds is that of its entry. -/
theorem DevCtx.holds_eq
    {ctx : DevCtx H} {i : Nat}
    (hSlot : SlotOk (ctx.waitq i)) :
    ctx.holds i =
      (ctx.entry i).map fun e => e.job.seqnum := by
  unfold DevCtx.holds
  by_cases hIn : (ctx.waitq i).status = .ddcbIn
  · have hSome := hSlot.whole hIn
    rw [if_pos hIn]
    unfold DevCtx.entry
    unfold TxWaitq.entry at hSome ⊢
    rw [if_pos hIn] at hSome ⊢
    split at hSome
    · rfl
    · exact absurd rfl hSome
  · have hNone : ctx.entry i = none := by
      unfold DevCtx.entry TxWaitq.entry
      exact if_neg hIn
    rw [if_neg hIn, hNone]
    rfl

section Numbers

variable [DecidableEq H] [Fintype H]
variable {trace : List (Event H)} {s : System H}
variable {queue : List (Entry H)}

/- The entry of a slot, by its place in the queue. -/
theorem QueueInv.place
    (hInv : QueueInv trace s queue)
    (hNumbered : Numbered (submittedJobs trace))
    {i : Nat} {e : Entry H}
    (hLt : i < numDdcbs)
    (hEntry : s.mem.ctx.entry i = some e) :
    ∃ k < queue.length,
      i = (s.mem.ctx.ddcbOut + k) % numDdcbs ∧
        e.job.seqnum =
          seqnumOf ((completions trace).length + k) := by
  rcases ring_position_surj hInv.ring.out_lt hLt with
    ⟨k, hK, hIs⟩
  have hGet := hInv.ring.slots k hK
  rw [← hIs, hEntry] at hGet
  rcases List.getElem?_eq_some_iff.mp hGet.symm with
    ⟨hLen, hGot⟩
  refine ⟨k, hLen, hIs, hNumbered _ _ ?_⟩
  rw [hInv.jobs, List.getElem?_append_right (by simp),
    List.length_map, Nat.add_sub_cancel_left,
    List.getElem?_map, ← hGet]
  rfl

/- Two slots of the queue have different numbers. -/
theorem QueueInv.slot_of_seqnum
    (hInv : QueueInv trace s queue)
    (hNumbered : Numbered (submittedJobs trace))
    {i j : Nat} {e e' : Entry H}
    (hI : i < numDdcbs)
    (hJ : j < numDdcbs)
    (hEntry : s.mem.ctx.entry i = some e)
    (hOther : s.mem.ctx.entry j = some e')
    (hSame : e.job.seqnum = e'.job.seqnum) :
    i = j := by
  rcases hInv.place hNumbered hI hEntry with
    ⟨k, hK, rfl, hSeq⟩
  rcases hInv.place hNumbered hJ hOther with
    ⟨l, hL, rfl, hSeq'⟩
  have hSize : queue.length ≤ 4 := hInv.ring.length_le
  have hMod := seqnumOf_inj
    (hSeq.symm.trans (hSame.trans hSeq'))
  have hEq : k = l := by omega
  rw [hEq]

/- Nor is the next number one that is in the queue. -/
theorem QueueInv.seqnum_new
    (hInv : QueueInv trace s queue)
    (hNumbered : Numbered (submittedJobs trace))
    {i : Nat} {e : Entry H}
    (hLt : i < numDdcbs)
    (hEntry : s.mem.ctx.entry i = some e) :
    e.job.seqnum ≠ seqnumOf (submittedJobs trace).length := by
  rcases hInv.place hNumbered hLt hEntry with
    ⟨k, hK, -, hSeq⟩
  intro hSame
  have hSize : queue.length ≤ 4 := hInv.ring.length_le
  have hMod := seqnumOf_inj (hSeq.symm.trans hSame)
  rw [hInv.jobs, List.length_append, List.length_map,
    List.length_map] at hMod
  omega

end Numbers

------------------------------------------------------------
-- The Invariant
------------------------------------------------------------

variable {trace : List (Event H)} {s s' : System H}
variable {queue : List (Entry H)}

/-
  The memory of the commands is that behind the completions,
  and the slots of the queue show what the card wrote into
  them since they hold their requests.
-/
structure ResultsInv
    (cmds : Nat → DdcbCmd)
    (trace : List (Event H))
    (s : System H) : Prop where
  memory : s.mem.cmds = memoryAfter cmds (completions trace)
  numbered : Numbered (submittedJobs trace)
  next :
    s.mem.ctx.ddcbSeqnum =
      seqnumOf (submittedJobs trace).length
  slots :
    ∀ i < numDdcbs, ∀ e,
      s.mem.ctx.entry i = some e →
        Answered (answerTo e.job.seqnum trace)
          (s.mem.ctx.ddcb i).result
  answered :
    ∀ past c,
      past ++ [.posted (.completed c)] <+: trace →
        Answered (answerTo c.job.seqnum past) c.result

variable {cmds : Nat → DdcbCmd}

theorem resultsInv_init
    (ctx : DevCtx H)
    (ttxs : H → Ttxs)
    (cmds : Nat → DdcbCmd) :
    ResultsInv cmds [] (systemInit ctx ttxs cmds) where
  memory := rfl
  numbered := by
    intro k job hGet
    cases hGet
  next := rfl
  slots := by
    intro i hLt e hEntry
    have hFree :
        (setupWaitq ctx.waitq i).status = .ddcbFree := by
      unfold setupWaitq
      rw [if_pos hLt]
    have hNone : (setupWaitq ctx.waitq i).entry = none := by
      unfold TxWaitq.entry
      rw [hFree, if_neg (by decide)]
    have hEntry : (setupWaitq ctx.waitq i).entry = some e :=
      hEntry
    rw [hNone] at hEntry
    cases hEntry
  answered := by
    intro past c hPrefix
    have hNil := List.prefix_nil.mp hPrefix
    simp at hNil

/- What was said about the completions before. -/
theorem ResultsInv.answered_append
    (hInv : ResultsInv cmds trace s)
    {event : Event H}
    (hLast :
      ∀ c, event = .posted (.completed c) →
        Answered (answerTo c.job.seqnum trace) c.result)
    {past : List (Event H)} {c : Completion H}
    (hPrefix :
      past ++ [.posted (.completed c)] <+:
        trace ++ [event]) :
    Answered (answerTo c.job.seqnum past) c.result := by
  rcases List.prefix_concat_iff.mp hPrefix with
    hEq | hBefore
  · rcases List.append_inj' hEq rfl with ⟨rfl, hSame⟩
    cases hSame
    exact hLast c rfl
  · exact hInv.answered past c hBefore

/- Steps that neither fill, write nor complete a slot. -/
theorem ResultsInv.keep
    (hInv : ResultsInv cmds trace s)
    {event : Event H}
    (hCtx :
      s'.mem.ctx.waitq = s.mem.ctx.waitq ∧
        s'.mem.ctx.ddcb = s.mem.ctx.ddcb ∧
        s'.mem.ctx.ddcbSeqnum = s.mem.ctx.ddcbSeqnum)
    (hCmds : s'.mem.cmds = s.mem.cmds)
    (hJob : event.job = none)
    (hDone : event.completion = none)
    (hAnswer :
      ∀ seqnum answer,
        answerAfter seqnum answer event = answer) :
    ResultsInv cmds (trace ++ [event]) s' := by
  rcases hCtx with ⟨hWaitq, hDdcb, hSeqnum⟩
  have hJobs :
      submittedJobs (trace ++ [event]) =
        submittedJobs trace := by
    rw [submittedJobs_append, hJob]
    exact List.append_nil _
  refine ⟨?_, ?_, ?_, ?_, fun past c hPrefix =>
    hInv.answered_append (fun c hIs => ?_) hPrefix⟩
  · rw [hCmds, hInv.memory, completions_append, hDone]
    simp
  · rw [hJobs]
    exact hInv.numbered
  · rw [hSeqnum, hJobs]
    exact hInv.next
  · intro i hLt e hEntry
    unfold DevCtx.entry at hEntry
    rw [hWaitq] at hEntry
    rw [answerTo_append, hAnswer, hDdcb]
    exact hInv.slots i hLt e hEntry
  · rw [hIs] at hDone
    cases hDone

variable [DecidableEq H] [Fintype H]

/- A slot that is filled has no answer yet. -/
theorem ResultsInv.submit
    (hQueue : QueueInv trace s queue)
    (hInv : ResultsInv cmds trace s)
    {ttx : H} {cmd : Nat} {rest : List Nat}
    (hCaller : s.callers ttx = .filling (cmd :: rest) true)
    (now : UInt64) :
    ResultsInv cmds
      (trace ++
        [.submitted ⟨ttx, cmd, s.mem.ctx.ddcbSeqnum⟩])
      (s.submit ttx cmd rest now) := by
  have hHolds : (s.callers ttx).holdsSlot = true := by
    rw [hCaller]
    rfl
  have hEmpty :=
    hQueue.ring.free_at_input (hQueue.room hHolds)
  have hSlot := hQueue.slots _ hQueue.ring.inn_lt
  have hJobs :
      submittedJobs
          (trace ++
            [.submitted ⟨ttx, cmd, s.mem.ctx.ddcbSeqnum⟩]) =
        submittedJobs trace ++
          [⟨ttx, cmd, s.mem.ctx.ddcbSeqnum⟩] := by
    rw [submittedJobs_append]
    rfl
  refine ⟨?_, ?_, ?_, ?_, fun past c hPrefix =>
    hInv.answered_append (fun c hIs => by cases hIs)
      hPrefix⟩
  · rw [completions_append]
    change s.mem.cmds = _
    rw [hInv.memory]
    simp [Event.completion]
  · rw [hJobs]
    exact hInv.numbered.append hInv.next
  · rw [hJobs, List.length_append, List.length_singleton]
    change s.mem.ctx.ddcbSeqnum + 1 = _
    rw [hInv.next, seqnumOf_succ]
  · intro i hLt e hEntry
    have hEntries :=
      DevCtx.entry_execute hSlot hEmpty ttx cmd
        (s.mem.cmds cmd) rest.isEmpty now
    have hEntry :
        (ddcbExecuteSection s.mem.ctx ttx cmd
          (s.mem.cmds cmd) rest.isEmpty now).entry i =
          some e := hEntry
    rw [hEntries] at hEntry
    change Answered _
      (Function.update s.mem.ctx.ddcb s.mem.ctx.ddcbIn _
        i).result
    rw [answerTo_append]
    by_cases hSame : i = s.mem.ctx.ddcbIn
    · subst hSame
      rw [Function.update_self] at hEntry ⊢
      cases hEntry
      simp only [answerAfter, if_pos]
      rfl
    · rw [Function.update_of_ne hSame] at hEntry ⊢
      have hNew := hQueue.seqnum_new hInv.numbered hLt hEntry
      rw [← hInv.next] at hNew
      simp only [answerAfter]
      rw [if_neg (Ne.symm hNew)]
      exact hInv.slots i hLt e hEntry

/- The card writes for the request that the slot holds. -/
theorem ResultsInv.write
    (hQueue : QueueInv trace s queue)
    (hInv : ResultsInv cmds trace s)
    {idx : Nat}
    (hIdx : idx < numDdcbs)
    (result : DdcbResult) :
    ResultsInv cmds
      (trace ++ [.written result (s.mem.ctx.holds idx)])
      (s.write idx result) := by
  have hJobs :
      submittedJobs
          (trace ++
            [.written result (s.mem.ctx.holds idx)]) =
        submittedJobs trace := by
    rw [submittedJobs_append]
    exact List.append_nil _
  refine ⟨?_, ?_, ?_, ?_, fun past c hPrefix =>
    hInv.answered_append (fun c hIs => by cases hIs)
      hPrefix⟩
  · rw [completions_append]
    change s.mem.cmds = _
    rw [hInv.memory]
    simp [Event.completion]
  · rw [hJobs]
    exact hInv.numbered
  · rw [hJobs]
    exact hInv.next
  · intro i hLt e hAt
    have hEntry : s.mem.ctx.entry i = some e := hAt
    have hHolds :=
      DevCtx.holds_eq (hQueue.slots idx hIdx)
    change Answered _
      (Function.update s.mem.ctx.ddcb idx _ i).result
    rw [answerTo_append]
    simp only [answerAfter]
    by_cases hSame : i = idx
    · subst hSame
      rw [Function.update_self, hHolds, hEntry]
      simp only [Option.map_some, if_true]
      rfl
    · rw [Function.update_of_ne hSame, if_neg]
      · exact hInv.slots i hLt e hEntry
      · -- the number would be that of another slot
        intro hIs
        rw [hHolds] at hIs
        rcases Option.map_eq_some_iff.mp hIs with
          ⟨e', hOther, hSeq⟩
        exact hSame (hQueue.slot_of_seqnum hInv.numbered hLt
          hIdx hEntry hOther hSeq.symm)

/- The done thread copies what the slot shows. -/
theorem ResultsInv.complete
    (hQueue : QueueInv trace s queue)
    (hInv : ResultsInv cmds trace s)
    {complCode : Int}
    {cmd : Nat} {ttx : H}
    (hStatus :
      (s.mem.ctx.waitq s.mem.ctx.ddcbOut).status = .ddcbIn)
    (hCmd :
      (s.mem.ctx.waitq s.mem.ctx.ddcbOut).cmd = some cmd)
    (hTtx :
      (s.mem.ctx.waitq s.mem.ctx.ddcbOut).ttx = some ttx)
    {c : Completion H} {mem : Driver H}
    (hComplete :
      ddcbComplete s.mem complCode =
        some (.completed c, mem))
    (thread : DoneThread) :
    ResultsInv cmds (trace ++ [.posted (.completed c)])
      { s with mem := mem, thread := thread } := by
  rcases ddcbComplete_spec hCmd hTtx hComplete with
    ⟨hResult, hCtx, -, hCmds⟩
  cases hResult
  have hEntry := TxWaitq.entry_eq hStatus hCmd hTtx
  have hShown := hInv.slots _ hQueue.ring.out_lt _ hEntry
  have hAnswer :
      ∀ seqnum c,
        answerTo seqnum
            (trace ++
              [(.posted (.completed c) : Event H)]) =
          answerTo seqnum trace := by
    intro seqnum c
    rw [answerTo_append]
    rfl
  have hJobs :
      ∀ c,
        submittedJobs
            (trace ++
              [(.posted (.completed c) : Event H)]) =
          submittedJobs trace := by
    intro c
    rw [submittedJobs_append]
    exact List.append_nil _
  refine ⟨?_, ?_, ?_, ?_, fun past c hPrefix =>
    hInv.answered_append (fun c hIs => ?_) hPrefix⟩
  · rw [completions_append]
    change mem.cmds = memoryAfter cmds (_ ++ [_])
    rw [memoryAfter_append, hCmds, ddcb2Cmd_eq, hInv.memory]
  · rw [hJobs]
    exact hInv.numbered
  · rw [hJobs]
    change mem.ctx.ddcbSeqnum = _
    rw [hCtx]
    exact hInv.next
  · intro i hLt e hAt
    have hAt : mem.ctx.entry i = some e := hAt
    rw [hAnswer]
    change Answered _ (mem.ctx.ddcb i).result
    rw [hCtx, DevCtx.entry_release] at hAt
    rw [hCtx]
    by_cases hSame : i = s.mem.ctx.ddcbOut
    · subst hSame
      rw [Function.update_self] at hAt
      cases hAt
    · rw [Function.update_of_ne hSame] at hAt
      exact hInv.slots i hLt e hAt
  · cases hIs
    exact hShown

/- Every step keeps the invariant. -/
theorem resultsInv_step
    (hQueue : QueueInv trace s queue)
    (hInv : ResultsInv cmds trace s)
    {event : Event H}
    (hNext : s.Next event s') :
    ResultsInv cmds (trace ++ [event]) s' := by
  have hSame :
      s.mem.ctx.waitq = s.mem.ctx.waitq ∧
        s.mem.ctx.ddcb = s.mem.ctx.ddcb ∧
        s.mem.ctx.ddcbSeqnum = s.mem.ctx.ddcbSeqnum :=
    ⟨rfl, rfl, rfl⟩
  cases hNext.outcome with
  | refused =>
      exact hInv.keep hSame rfl rfl rfl fun _ _ => rfl
  | called =>
      exact hInv.keep hSame rfl rfl rfl fun _ _ => rfl
  | acquired =>
      exact hInv.keep hSame rfl rfl rfl fun _ _ => rfl
  | submitted hCaller now =>
      exact hInv.submit hQueue hCaller now
  | returned =>
      exact hInv.keep hSame rfl rfl rfl fun _ _ => rfl
  | written hIdx result =>
      exact hInv.write hQueue hIdx result
  | woken =>
      exact hInv.keep hSame rfl rfl rfl fun _ _ => rfl
  | @posted _ result _ _ hPost =>
      cases hPost with
      | leave hResult =>
          refine hInv.keep hSame rfl rfl ?_ fun _ _ => rfl
          cases result with
          | completed c => exact absurd rfl (hResult c)
          | stop => rfl
          | cont => rfl
      | complete hStatus hCmd hTtx _ hComplete =>
          exact hInv.complete hQueue hStatus hCmd hTtx
            hComplete _

theorem resultsInv_of_run
    {ctx : DevCtx H} {ttxs : H → Ttxs}
    (hRun :
      Run System.Next (systemInit ctx ttxs cmds) trace s) :
    (∃ queue, QueueInv trace s queue) ∧
      ResultsInv cmds trace s := by
  refine hRun.invariant
    (fun trace s =>
      (∃ queue, QueueInv trace s queue) ∧
        ResultsInv cmds trace s)
    ⟨⟨[], queueInv_init ctx ttxs cmds⟩,
      resultsInv_init ctx ttxs cmds⟩ ?_
  rintro trace s event s' ⟨⟨queue, hQueue⟩, hInv⟩ hNext
  exact ⟨queueInv_step hQueue hNext,
    resultsInv_step hQueue hInv hNext⟩

------------------------------------------------------------
-- Soundness of the Queue
------------------------------------------------------------

/- The commands in the slots from `ddcb_out` on, in order. -/
def System.queuedJobs (s : System H) : List (Job H) :=
  (List.range s.inFlight).filterMap fun k =>
    (s.mem.ctx.entry
      ((s.mem.ctx.ddcbOut + k) % numDdcbs)).map
      fun e => e.job

/-
  The ring is sound: the slots in the queue are contiguous,
  the free slots are accounted for, and no caller will
  overwrite one that is in the queue. Commands are completed
  once and in the order of submission; their memory, which was
  `cmds` at the start, has the results that were found in
  their slots, and these are what the card wrote there. Every
  call is posted once, when its last command is completed: the
  semaphore counts that until the call returns.
-/
structure QueueSound
    (cmds : Nat → DdcbCmd)
    (trace : List (Event H))
    (s : System H) : Prop where
  contiguous :
    s.inFlight ≤ numDdcbs ∧
      s.mem.ctx.ddcbOut < numDdcbs ∧
      s.mem.ctx.ddcbIn =
        (s.mem.ctx.ddcbOut + s.inFlight) % numDdcbs ∧
      ∀ i < numDdcbs,
        (s.mem.ctx.waitq i).status = .ddcbIn ↔
          ∃ k < s.inFlight,
            i = (s.mem.ctx.ddcbOut + k) % numDdcbs
  free :
    s.mem.ctx.freeSem + slotsAcquired s.callers +
      s.inFlight = numDdcbs
  not_overwritten :
    ∀ ttx,
      (s.callers ttx).holdsSlot = true →
        (s.mem.ctx.waitq s.mem.ctx.ddcbIn).status ≠ .ddcbIn
  copied_once :
    submittedJobs trace =
      (completions trace).map (fun c => c.job) ++
        s.queuedJobs
  copied_back :
    s.mem.cmds = memoryAfter cmds (completions trace)
  answered :
    ∀ past c,
      past ++ [.posted (.completed c)] <+: trace →
        Answered (answerTo c.job.seqnum past) c.result
  posted_once :
    ∀ ttx log,
      callLog ttx trace = some log →
        log.copied <+: log.chain ∧
          log.posts =
            (if log.copied = log.chain then 1 else 0) ∧
          (s.mem.ttxs ttx).waitSem + log.returned.length =
            log.posts
  not_posted :
    ∀ ttx,
      callLog ttx trace = none →
        (s.mem.ttxs ttx).waitSem = 0

/- In every run the queue is sound. -/
theorem queue_sound
    {ctx : DevCtx H} {ttxs : H → Ttxs}
    (hRun :
      Run System.Next (systemInit ctx ttxs cmds) trace s) :
    QueueSound cmds trace s := by
  rcases resultsInv_of_run hRun with
    ⟨⟨queue, hInv⟩, hResults⟩
  have hFlight := hInv.inFlight_eq
  refine ⟨⟨?_, hInv.ring.out_lt, ?_, ?_⟩, ?_, ?_, ?_,
    hResults.memory, hResults.answered, ?_, ?_⟩
  · rw [hFlight]
    exact hInv.ring.length_le
  · rw [hFlight]
    exact hInv.ring.inn_eq
  · intro i hLt
    rw [hFlight, (hInv.slots i hLt).status_iff]
    exact hInv.ring.occupied_iff hLt
  · rw [hFlight]
    exact hInv.free
  · intro ttx hHolds hStatus
    have hSlot := hInv.slots _ hInv.ring.inn_lt
    exact hSlot.whole hStatus
      (hInv.ring.free_at_input (hInv.room hHolds))
  · rw [hInv.jobs]
    unfold System.queuedJobs
    rw [hFlight, ← List.map_filterMap, ← hInv.ring.queue_eq]
  · intro ttx log hLog
    have hCall := (hInv.callers ttx).call log hLog
    exact ⟨hCall.posted_once.1, hCall.posted_once.2.1,
      hCall.sem⟩
  · intro ttx hNone
    have hCaller := hInv.callers ttx
    by_cases hIdle : s.callers ttx = .idle
    · exact (hCaller.idle hIdle).2
    · exact absurd hNone (hCaller.logged hIdle)

end Memory

/-
  A chain of two commands and one of one. The card completes
  the second request before the first one, and the third one
  not at all.
-/
def twoCallers : List (Action Bool) :=
  [.call false [0, 1], .call true [2],
    .acquire false, .acquire true, .submit false 0,
    .acquire false, .submit true 0, .submit false 0,
    .write 1
      ⟨[], 0xf00e, 0, 0, Zedc.ddcbRetcComplete, 0, 0, 0⟩,
    .write 0
      ⟨[], 0xf00d, 0, 0, Zedc.ddcbRetcComplete, 0, 0, 0⟩,
    .wake .afuInterrupt, .donePost 1, .donePost 1]

/- One caller is posted, the other has still to wait. -/
theorem queue_sound_two :
    ∃ s,
      QueueSound (fun _ => staticCmd)
          (traceOf 5 twoCallers) s ∧
        (s.mem.cmds 0).retc = Zedc.ddcbRetcComplete ∧
        (s.mem.cmds 2).retc = Zedc.ddcbRetcComplete ∧
        s.mem.cmds 1 = staticCmd ∧
        (s.mem.ttxs true).waitSem = 1 ∧
        (s.mem.ttxs false).waitSem = 0 := by
  rcases run_of_actions
    (by decide :
      (runActions (staticInit false 5)
        twoCallers).isSome = true) with
    ⟨s, hRun⟩
  have hSound := queue_sound hRun
  have hLogs :
      (∃ log,
          callLog true (traceOf 5 twoCallers) = some log ∧
            log.posts = 1 ∧ log.returned = []) ∧
        ∃ log,
          callLog false (traceOf 5 twoCallers) = some log ∧
            log.posts = 0 ∧ log.returned = [] :=
    ⟨⟨_, rfl, by decide, rfl⟩, _, rfl, by decide, rfl⟩
  rcases hLogs with
    ⟨⟨log, hLog, hPosts, hNone⟩, log', hLog', hPosts', hNone'⟩
  have hPosted := (hSound.posted_once true log hLog).2.2
  have hWaits := (hSound.posted_once false log' hLog').2.2
  rw [hPosts, hNone] at hPosted
  rw [hPosts', hNone'] at hWaits
  refine ⟨s, hSound, ?_, ?_, ?_, hPosted, hWaits⟩ <;>
    rw [hSound.copied_back] <;> decide

end Capi
