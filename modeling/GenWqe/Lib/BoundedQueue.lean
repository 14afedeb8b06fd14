import GenWqe.Lib.Lockstep

/-
  A first-in first-out queue of bounded length that takes
  and hands out several items at a time, all of them or none.

  Key definitions include:
    * `QueueOp`, `queueStep`
    * `allAccepted`, `allHandedOut`

  Main results:
    * `queue_length_le`
    * `queue_conserves`
-/

------------------------------------------------------------
-- The Queue
------------------------------------------------------------

section Queue

variable {α : Type*}

/- Put these items in, or take that many out. -/
inductive QueueOp (α : Type*) where
  | put (xs : List α)
  | take (n : Nat)

/-
  A request that does not fit is refused and changes nothing;
  one that fits is answered with the items taken out.
-/
def queueStep (cap : Nat) (q : List α) :
    QueueOp α → Option (List α) × List α
  | .put xs =>
      if q.length + xs.length ≤ cap then (some [], q ++ xs)
      else (none, q)
  | .take n =>
      if n ≤ q.length then (some (q.take n), q.drop n)
      else (none, q)

/- What an answered request put in. -/
def QueueOp.accepted :
    QueueOp α → Option (List α) → List α
  | .put xs, some _ => xs
  | _, _ => []

/- All that was put in, the oldest first. -/
def allAccepted
    (ops : List (QueueOp α))
    (answers : List (Option (List α))) : List α :=
  (List.zipWith QueueOp.accepted ops answers).flatten

/- All that was taken out, the oldest first. -/
def allHandedOut
    (answers : List (Option (List α))) : List α :=
  (answers.map fun answer => answer.getD []).flatten

variable {cap : Nat}

/- No step makes the queue longer than its capacity. -/
theorem queueStep_length_le
    {q : List α}
    (hLe : q.length ≤ cap)
    (op : QueueOp α) :
    (queueStep cap q op).2.length ≤ cap := by
  cases op with
  | put xs =>
      by_cases hFits : q.length + xs.length ≤ cap
      · simp only [queueStep, if_pos hFits,
          List.length_append]
        exact hFits
      · simp only [queueStep, if_neg hFits]
        exact hLe
  | take n =>
      by_cases hFits : n ≤ q.length
      · simp only [queueStep, if_pos hFits,
          List.length_drop]
        omega
      · simp only [queueStep, if_neg hFits]
        exact hLe

theorem queue_length_le
    {q : List α}
    (hLe : q.length ≤ cap)
    (ops : List (QueueOp α)) :
    (transcript (queueStep cap) ops q).2.length ≤ cap := by
  have hAll : ∀ op ∈ ops, True := fun _ _ => trivial
  exact transcript_preserves
    (P := fun q : List α => q.length ≤ cap)
    (fun q op _ hLe => queueStep_length_le hLe op) hLe hAll

/- One step: what was there and what came in is in order. -/
theorem queueStep_conserves
    (q : List α)
    (op : QueueOp α) :
    q ++ op.accepted (queueStep cap q op).1 =
      ((queueStep cap q op).1).getD [] ++
        (queueStep cap q op).2 := by
  cases op with
  | put xs =>
      by_cases hFits : q.length + xs.length ≤ cap
      · simp only [queueStep, if_pos hFits]
        rfl
      · simp only [queueStep, if_neg hFits]
        exact List.append_nil q
  | take n =>
      by_cases hFits : n ≤ q.length
      · simp [queueStep, if_pos hFits, QueueOp.accepted]
      · simp only [queueStep, if_neg hFits]
        exact List.append_nil q

/-
  Whatever was put in was taken out, in the same order, or is
  still waiting.
-/
theorem queue_conserves
    (q : List α)
    (ops : List (QueueOp α)) :
    q ++ allAccepted ops
          (transcript (queueStep cap) ops q).1 =
      allHandedOut (transcript (queueStep cap) ops q).1 ++
        (transcript (queueStep cap) ops q).2 := by
  induction ops generalizing q with
  | nil => exact List.append_nil q
  | cons op rest ih =>
      have hOne := @queueStep_conserves _ cap q op
      have hRest := ih (queueStep cap q op).2
      simp only [transcript, allAccepted, allHandedOut,
        List.zipWith_cons_cons, List.flatten_cons,
        List.map_cons] at hRest ⊢
      rw [← List.append_assoc, hOne, List.append_assoc,
        hRest, List.append_assoc]

end Queue
