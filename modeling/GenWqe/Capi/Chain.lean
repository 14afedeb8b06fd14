import GenWqe.Capi.Queue
import GenWqe.Capi.Numbers

/-
  What a chain of commands returns: the code of its last
  command, whatever became of the commands before it.

  Key definitions include:
    * `CallLog.AllOk` and `CallLog.ReportsAll`
    * `CallLog.NoneOverwritten`

  Main results:
    * `chain_reports_iff`
-/

namespace Capi

section Chain

variable {H : Type}

/- Every command of the chain was completed with success. -/
def CallLog.AllOk (log : CallLog H) : Prop :=
  log.copied = log.chain ∧
    ∀ c ∈ log.completions, c.complCode = ddcbOk

/- The code returned reports success if all succeeded. -/
def CallLog.ReportsAll
    (log : CallLog H)
    (rc : Int) : Prop :=
  rc = ddcbOk ↔ log.AllOk

/-
  No command was ended by an error of the done thread before
  a last command that was not.
-/
def CallLog.NoneOverwritten (log : CallLog H) : Prop :=
  (∃ c, log.completions.getLast? = some c ∧
      c.passed ≠ ddcbOk) ∨
    ∀ c ∈ log.completions, c.passed = ddcbOk

/- A call returns the code of its last command. -/
theorem CallOk.returned_last
    {ttxs : Ttxs} {log : CallLog H}
    {entries : List (Entry H)} {rest : List Nat}
    (hCall : CallOk ttxs log entries rest)
    {rc : Int}
    (hRc : rc ∈ log.returned) :
    log.copied = log.chain ∧
      ∃ c, log.completions.getLast? = some c ∧
        rc = c.complCode := by
  refine ⟨?_, hCall.codes rc hRc⟩
  rcases hCall.posted_once with ⟨-, hPosts, hReturned⟩
  have hSome := List.length_pos_of_mem hRc
  by_contra hNot
  rw [if_neg hNot] at hPosts
  omega

variable [DecidableEq H]

/- What is logged for a call was completed in the run. -/
theorem mem_completions_of_callLog
    {ttx : H} {trace : List (Event H)} {log : CallLog H}
    (hLog : callLog ttx trace = some log)
    {c : Completion H}
    (hMem : c ∈ log.completions) :
    c ∈ completions trace := by
  induction trace using List.reverseRecOn
    generalizing log with
  | nil => exact nomatch hLog
  | append_singleton trace event ih =>
      rw [callLog_append] at hLog
      rw [completions_append]
      unfold CallLog.after at hLog
      split at hLog
      · split at hLog
        · cases hLog
          exact nomatch hMem
        · exact List.mem_append_left _ (ih hLog hMem)
      · split at hLog
        · rcases Option.map_eq_some_iff.mp hLog with
            ⟨log', hPast, rfl⟩
          rcases List.mem_append.mp hMem with hOld | hNew
          · exact List.mem_append_left _ (ih hPast hOld)
          · exact List.mem_append_right _ hNew
        · exact List.mem_append_left _ (ih hLog hMem)
      · split at hLog
        · rcases Option.map_eq_some_iff.mp hLog with
            ⟨log', hPast, rfl⟩
          exact List.mem_append_left _ (ih hPast hMem)
        · exact List.mem_append_left _ (ih hLog hMem)
      · exact List.mem_append_left _ (ih hLog hMem)

variable [Fintype H]

/-
  In every run, what a call returns reports the whole chain
  exactly if the last command ended in an error itself or no
  command did.
-/
theorem chain_reports_iff
    {trace : List (Event H)} {s : System H}
    (hRun : SystemRun trace s)
    {ttx : H} {log : CallLog H}
    (hLog : callLog ttx trace = some log)
    {rc : Int}
    (hRc : rc ∈ log.returned) :
    log.ReportsAll rc ↔ log.NoneOverwritten := by
  rcases queueInv_of_run hRun with ⟨queue, hInv⟩
  rcases ((hInv.callers ttx).call log hLog).returned_last
    hRc with ⟨hCopied, c, hLast, rfl⟩
  have hStored :
      ∀ c' ∈ log.completions,
        (c'.complCode = ddcbOk ↔ c'.passed = ddcbOk) :=
    fun c' hMem =>
      ((numbersInv_of_run hRun).stored c'
        (mem_completions_of_callLog hLog hMem)).ok_iff
  have hMem := List.mem_of_getLast? hLast
  have hAll :
      log.AllOk ↔
        ∀ c' ∈ log.completions, c'.passed = ddcbOk :=
    ⟨fun h c' hIn => (hStored c' hIn).mp (h.2 c' hIn),
      fun h => ⟨hCopied, fun c' hIn =>
        (hStored c' hIn).mpr (h c' hIn)⟩⟩
  unfold CallLog.ReportsAll CallLog.NoneOverwritten
  rw [hStored c hMem, hAll]
  constructor
  · intro hIff
    by_cases hOk : c.passed = ddcbOk
    · exact Or.inr (hIff.mp hOk)
    · exact Or.inl ⟨c, hLast, hOk⟩
  · rintro (⟨c', hLast', hErr⟩ | hOk)
    · rw [hLast] at hLast'
      cases hLast'
      exact ⟨fun h => absurd h hErr,
        fun h => absurd (h c hMem) hErr⟩
    · exact ⟨fun _ => hOk, fun _ => hOk c hMem⟩

end Chain

------------------------------------------------------------
-- A Time-Out Forgotten
------------------------------------------------------------

/- The first command times out, the second one succeeds. -/
def timeoutThenOk : List (Action Unit) :=
  [.call () [0, 1],
    .acquire (), .submit () 0, .acquire (), .submit () 0,
    .wake .timeout, .donePost 5000,
    .write 1 (completeResult 0xf00e),
    .wake .afuInterrupt, .donePost 5001, .ret ()]

/- The chain returns success, the first command failed. -/
theorem timeout_forgotten :
    ¬ ∀ (trace : List (Event Unit)) (s : System Unit),
      SystemRun trace s →
        ∀ log, callLog () trace = some log →
          ∀ rc ∈ log.returned, log.ReportsAll rc := by
  intro hAll
  rcases SystemRun.of_actions
    (by decide :
      (runActions (staticInit false 5)
        timeoutThenOk).isSome = true) with
    ⟨s, hRun⟩
  have hLog :
      callLog () (traceOf 5 timeoutThenOk) =
        some
          { chain := [0, 1]
            completions :=
              [⟨⟨(), 0, 0xf00d⟩, ddcbErrIrqtimeout, 0xf00d,
                  ⟨[], 0, 0, 0, 0, 0, 0, 0⟩,
                  ddcbErrExecDdcb, false⟩,
                ⟨⟨(), 1, 0xf00e⟩, ddcbOk, 0xf00e,
                  completeResult 0xf00e, ddcbOk, true⟩]
            returned := [ddcbOk] } := by
    decide
  have hReport :=
    hAll _ s hRun _ hLog ddcbOk (List.mem_singleton_self _)
  have hFirst := (hReport.mp rfl).2 _ (List.mem_cons_self)
  exact absurd hFirst (by decide)

/- Both commands succeed. -/
def bothOk : List (Action Unit) :=
  [.call () [0, 1],
    .acquire (), .submit () 0, .acquire (), .submit () 0,
    .write 1 (completeResult 0xf00e),
    .write 0 (completeResult 0xf00d),
    .wake .afuInterrupt, .donePost 1, .donePost 1, .ret ()]

theorem chain_reports_both :
    ∃ log,
      callLog () (traceOf 5 bothOk) = some log ∧
        log.returned = [ddcbOk] ∧
        log.ReportsAll ddcbOk := by
  rcases SystemRun.of_actions
    (by decide :
      (runActions (staticInit false 5)
        bothOk).isSome = true) with
    ⟨s, hRun⟩
  have hLog :
      callLog () (traceOf 5 bothOk) =
        some
          { chain := [0, 1]
            completions :=
              [⟨⟨(), 0, 0xf00d⟩, ddcbOk, 0xf00d,
                  completeResult 0xf00d, ddcbOk, false⟩,
                ⟨⟨(), 1, 0xf00e⟩, ddcbOk, 0xf00e,
                  completeResult 0xf00e, ddcbOk, true⟩]
            returned := [ddcbOk] } := by
    decide
  refine ⟨_, hLog, rfl, ?_⟩
  refine (chain_reports_iff hRun hLog
    (List.mem_singleton_self _)).mpr (Or.inr ?_)
  decide

end Capi
