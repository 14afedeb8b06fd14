import GenWqe.Lib.BoundedQueue
import GenWqe.Zedc.Fifo

/-
  The FIFO of `deflate_fifo.h` behaves as a bounded queue of
  255 bytes: whatever is called in whatever order, the calls
  answer and leave behind what those of the queue do.

  Key definitions include:
    * `ZedcFifo.fifoPop16`
    * `FifoOp`, `fifoStep`
    * `boundedStep`

  Main results:
    * `fifoStep_simulates`
    * `fifo_refines_queue`
-/

------------------------------------------------------------
-- The Remaining Operations
------------------------------------------------------------

namespace Zedc

namespace ZedcFifo

/- What `fifo_push` returns. -/
def fifoPushRet (f : ZedcFifo) : Nat :=
  if f.fifoFree < 1 then 0 else 1

/- What `fifo_push32` returns. -/
def fifoPush32Ret (f : ZedcFifo) : Nat :=
  if f.fifoFree < 4 then 0 else 1

/-
  `fifo_pop` into a byte of the caller, which keeps what it
  holds where nothing is taken; `none` is an unset byte.
-/
def popInto (f : ZedcFifo) (data : Option UInt8) :
    Option UInt8 × ZedcFifo :=
  match f.fifoPop with
  | none => (data, f)
  | some (b, f') => (some b, f')

/-
  `fifo_pop16`, with the two bytes of its result as they lie
  in memory. The loop does not look at what `fifo_pop`
  returns.
-/
def fifoPop16 (f : ZedcFifo) :
    Option (List (Option UInt8)) × ZedcFifo :=
  if f.fifoUsed < 2 then (none, f)
  else
    let first := f.popInto none
    let second := first.2.popInto none
    (some [first.1, second.1], second.2)

/- `fifo_push` on a full FIFO changes nothing. -/
theorem fifoPush_full
    {f : ZedcFifo}
    (hFull : ¬ f.contents.length + 1 ≤ 255)
    (data : UInt8) :
    f.fifoPush data = f := by
  have hFree := f.fifoFree_eq
  unfold fifoPush
  rw [if_pos (by omega)]

/- `fifo_push32` with less than four bytes free does not. -/
theorem fifoPush32_full
    {f : ZedcFifo}
    (hFull : ¬ f.contents.length + 4 ≤ 255)
    (data : List UInt8) :
    f.fifoPush32 data = f := by
  have hFree := f.fifoFree_eq
  unfold fifoPush32
  rw [if_pos (by omega)]

/- A waiting byte is taken, and the others wait behind. -/
theorem popInto_of_contents
    {f : ZedcFifo}
    {b : UInt8}
    {rest : List UInt8}
    (hContents : f.contents = b :: rest)
    (data : Option UInt8) :
    (f.popInto data).1 = some b ∧
      (f.popInto data).2.contents = rest := by
  unfold popInto
  cases hPop : f.fifoPop with
  | none =>
      have hEmpty := f.fifoPop_eq_none_iff.mp hPop
      rw [hContents] at hEmpty
      cases hEmpty
  | some taken =>
      rcases taken with ⟨b', f'⟩
      have hHead := contents_of_fifoPop hPop
      rw [hContents] at hHead
      simp only [List.cons.injEq] at hHead
      exact ⟨by rw [hHead.1], hHead.2.symm⟩

end ZedcFifo

------------------------------------------------------------
-- Calls
------------------------------------------------------------

/- The four bytes of a word as they lie in memory. -/
inductive FifoOp where
  | push (data : UInt8)
  | push32 (b0 b1 b2 b3 : UInt8)
  | pop
  | pop16

/-
  What a call returns and what it writes for its caller, and
  what the three questions answer after it.
-/
structure FifoAnswer where
  rc : Nat
  data : List (Option UInt8)
  used : Nat
  free : Nat
  empty : Bool

/- The answers of the FIFO as it is after a call. -/
def ZedcFifo.answer
    (f : ZedcFifo) (rc : Nat) (data : List (Option UInt8)) :
    FifoAnswer where
  rc := rc
  data := data
  used := f.fifoUsed
  free := f.fifoFree
  empty := f.fifoEmpty

/- One call. -/
def fifoStep (f : ZedcFifo) :
    FifoOp → FifoAnswer × ZedcFifo
  | .push data =>
      let f' := f.fifoPush data
      (f'.answer f.fifoPushRet [], f')
  | .push32 b0 b1 b2 b3 =>
      let f' := f.fifoPush32 [b0, b1, b2, b3]
      (f'.answer f.fifoPush32Ret [], f')
  | .pop =>
      match f.fifoPop with
      | none => (f.answer 0 [], f)
      | some (b, f') => (f'.answer 1 [some b], f')
  | .pop16 =>
      match f.fifoPop16 with
      | (none, f') => (f'.answer 0 [], f')
      | (some data, f') => (f'.answer 1 data, f')

------------------------------------------------------------
-- The Bounded Queue
------------------------------------------------------------

/- What a call asks of the queue. -/
def FifoOp.request : FifoOp → QueueOp UInt8
  | .push data => .put [data]
  | .push32 b0 b1 b2 b3 => .put [b0, b1, b2, b3]
  | .pop => .take 1
  | .pop16 => .take 2

/- What a call on the queue shows. -/
def boundedAnswer
    (handed : Option (List UInt8)) (q : List UInt8) :
    FifoAnswer where
  rc := if handed.isSome then 1 else 0
  data := (handed.getD []).map some
  used := q.length
  free := 255 - q.length
  empty := q.isEmpty

/- One call on the queue of 255 bytes. -/
def boundedStep (q : List UInt8) (op : FifoOp) :
    FifoAnswer × List UInt8 :=
  let next := queueStep 255 q op.request
  (boundedAnswer next.1 next.2, next.2)

/- The FIFO answers its questions as its contents would. -/
theorem ZedcFifo.answer_eq
    {f : ZedcFifo}
    {q : List UInt8}
    (hContents : f.contents = q)
    (handed : Option (List UInt8)) :
    f.answer (if handed.isSome then 1 else 0)
        ((handed.getD []).map some) =
      boundedAnswer handed q := by
  subst hContents
  have hEmpty : f.fifoEmpty = f.contents.isEmpty := by
    rw [Bool.eq_iff_iff, f.fifoEmpty_iff,
      List.isEmpty_iff]
  simp only [answer, boundedAnswer]
  rw [hEmpty, f.fifoFree_eq, f.length_contents]

/-
  One call: a FIFO that holds the queue answers as the queue
  does and holds the next queue.
-/
theorem fifoStep_simulates
    (f : ZedcFifo)
    (q : List UInt8)
    (op : FifoOp)
    (hContents : f.contents = q) :
    (fifoStep f op).1 = (boundedStep q op).1 ∧
      (fifoStep f op).2.contents = (boundedStep q op).2 := by
  subst hContents
  have hFree := f.fifoFree_eq
  cases op with
  | push data =>
      by_cases hFits : f.contents.length + 1 ≤ 255
      · have hPush := f.contents_fifoPush data (by omega)
        have hRet : f.fifoPushRet = 1 := by
          unfold ZedcFifo.fifoPushRet
          rw [if_neg (by omega)]
        have hAnswer :=
          ZedcFifo.answer_eq hPush (some [])
        simp only [fifoStep, boundedStep, FifoOp.request,
          queueStep, List.length_singleton, if_pos hFits,
          hRet]
        exact ⟨hAnswer, hPush⟩
      · have hPush := ZedcFifo.fifoPush_full hFits data
        have hRet : f.fifoPushRet = 0 := by
          unfold ZedcFifo.fifoPushRet
          rw [if_pos (by omega)]
        have hAnswer :=
          ZedcFifo.answer_eq (f := f) rfl none
        simp only [fifoStep, boundedStep, FifoOp.request,
          queueStep, List.length_singleton, if_neg hFits,
          hRet, hPush]
        exact ⟨hAnswer, trivial⟩
  | push32 b0 b1 b2 b3 =>
      by_cases hFits : f.contents.length + 4 ≤ 255
      · have hPush :=
          f.contents_fifoPush32 [b0, b1, b2, b3] rfl hFits
        have hRet : f.fifoPush32Ret = 1 := by
          unfold ZedcFifo.fifoPush32Ret
          rw [if_neg (by omega)]
        have hAnswer :=
          ZedcFifo.answer_eq hPush (some [])
        simp only [fifoStep, boundedStep, FifoOp.request,
          queueStep, List.length_cons, List.length_nil,
          Nat.zero_add, Nat.reduceAdd, if_pos hFits, hRet]
        exact ⟨hAnswer, hPush⟩
      · have hPush :=
          ZedcFifo.fifoPush32_full hFits [b0, b1, b2, b3]
        have hRet : f.fifoPush32Ret = 0 := by
          unfold ZedcFifo.fifoPush32Ret
          rw [if_pos (by omega)]
        have hAnswer :=
          ZedcFifo.answer_eq (f := f) rfl none
        simp only [fifoStep, boundedStep, FifoOp.request,
          queueStep, List.length_cons, List.length_nil,
          Nat.zero_add, Nat.reduceAdd, if_neg hFits, hRet,
          hPush]
        exact ⟨hAnswer, trivial⟩
  | pop =>
      cases hPop : f.fifoPop with
      | none =>
          have hEmpty := f.fifoPop_eq_none_iff.mp hPop
          have hAnswer := ZedcFifo.answer_eq hEmpty none
          simp only [fifoStep, hPop, boundedStep,
            FifoOp.request, queueStep, hEmpty]
          exact ⟨hAnswer, rfl⟩
      | some taken =>
          rcases taken with ⟨b, f'⟩
          have hHead := ZedcFifo.contents_of_fifoPop hPop
          have hAnswer :=
            ZedcFifo.answer_eq (f := f') rfl (some [b])
          simp only [fifoStep, hPop, boundedStep,
            FifoOp.request, queueStep, hHead,
            List.length_cons, Nat.le_add_left, if_true]
          exact ⟨hAnswer, rfl⟩
  | pop16 =>
      by_cases hFits : 2 ≤ f.contents.length
      · rcases hBytes : f.contents with _ | ⟨b, _ | ⟨c, rest⟩⟩
        · rw [hBytes] at hFits
          cases hFits
        · rw [hBytes] at hFits
          simp at hFits
        have hFirst :=
          ZedcFifo.popInto_of_contents hBytes none
        have hSecond :=
          ZedcFifo.popInto_of_contents hFirst.2 none
        have hUsed : ¬ f.fifoUsed < 2 := by
          rw [← f.length_contents]
          omega
        have hAnswer :=
          ZedcFifo.answer_eq hSecond.2 (some [b, c])
        simp only [fifoStep, ZedcFifo.fifoPop16,
          if_neg hUsed, hFirst.1, hSecond.1, boundedStep,
          FifoOp.request, queueStep, List.length_cons,
          Nat.le_add_left, if_true]
        exact ⟨hAnswer, hSecond.2⟩
      · have hUsed : f.fifoUsed < 2 := by
          rw [← f.length_contents]
          omega
        have hAnswer :=
          ZedcFifo.answer_eq (f := f) rfl none
        simp only [fifoStep, ZedcFifo.fifoPop16,
          if_pos hUsed, boundedStep, FifoOp.request,
          queueStep, if_neg hFits]
        exact ⟨hAnswer, trivial⟩

------------------------------------------------------------
-- Every Sequence of Calls
------------------------------------------------------------

/- The bytes that calls have put in, by what they returned. -/
def pushedBytes
    (ops : List FifoOp) (answers : List FifoAnswer) :
    List UInt8 :=
  allAccepted (ops.map FifoOp.request)
    (answers.map fun answer =>
      if answer.rc = 1 then some [] else none)

/- The bytes that calls have taken out. -/
def poppedBytes (answers : List FifoAnswer) :
    List (Option UInt8) :=
  (answers.map FifoAnswer.data).flatten

/- What was handed out stands in the answer. -/
theorem accepted_of_rc
    (op : QueueOp UInt8)
    (handed : Option (List UInt8))
    (q : List UInt8) :
    op.accepted
        (if (boundedAnswer handed q).rc = 1 then some []
          else none) =
      op.accepted handed := by
  cases handed with
  | none => rfl
  | some bytes => cases op <;> rfl

/-
  The calls on the queue are the queue's own steps with their
  answers written in another way.
-/
theorem boundedStep_transcript
    (ops : List FifoOp)
    (q : List UInt8) :
    let calls := transcript boundedStep ops q
    let steps :=
      transcript (queueStep 255) (ops.map FifoOp.request) q
    pushedBytes ops calls.1 =
        allAccepted (ops.map FifoOp.request) steps.1 ∧
      poppedBytes calls.1 =
        (allHandedOut steps.1).map some ∧
      calls.2 = steps.2 := by
  induction ops generalizing q with
  | nil => exact ⟨rfl, rfl, rfl⟩
  | cons op rest ih =>
      rcases ih (queueStep 255 q op.request).2 with
        ⟨hPushed, hPopped, hBehind⟩
      refine ⟨?_, ?_, hBehind⟩
      · simp only [pushedBytes, allAccepted, transcript,
          List.map_cons, List.zipWith_cons_cons,
          List.flatten_cons] at hPushed ⊢
        rw [show
            (boundedStep q op).2 =
              (queueStep 255 q op.request).2 from rfl,
          hPushed]
        congr 1
        exact accepted_of_rc _ _ _
      · simp only [poppedBytes, allHandedOut, transcript,
          List.map_cons, List.flatten_cons,
          List.map_append] at hPopped ⊢
        rw [show
            (boundedStep q op).2 =
              (queueStep 255 q op.request).2 from rfl,
          hPopped]
        rfl

/-
  For every sequence of calls from the initial state: the
  FIFO answers as the bounded queue does and holds the same
  bytes, its three questions report their number, and what
  was pushed is what was popped and what waits, in order.
-/
theorem fifo_refines_queue (ops : List FifoOp) :
    let run := transcript fifoStep ops ZedcFifo.fifoInit
    let queue := transcript boundedStep ops []
    run.1 = queue.1 ∧
      run.2.contents = queue.2 ∧
      queue.2.length ≤ 255 ∧
      run.2.fifoUsed = queue.2.length ∧
      run.2.fifoFree = 255 - queue.2.length ∧
      (run.2.fifoEmpty = true ↔ queue.2 = []) ∧
      (pushedBytes ops run.1).map some =
        poppedBytes run.1 ++ run.2.contents.map some := by
  intro run queue
  have hAll : ∀ op ∈ ops, True := fun _ _ => trivial
  have hSame : run.1 = queue.1 ∧ run.2.contents = queue.2 :=
    transcript_simulates
      (fun f q op _ => fifoStep_simulates f q op)
      ZedcFifo.contents_fifoInit hAll
  rcases hSame with ⟨hAnswers, hContents⟩
  rcases boundedStep_transcript ops [] with
    ⟨hPushed, hPopped, hBehind⟩
  have hLength : queue.2.length ≤ 255 := by
    rw [hBehind]
    exact queue_length_le (Nat.zero_le 255) _
  have hKept :=
    @queue_conserves _ 255 [] (ops.map FifoOp.request)
  have hEmpty := run.2.fifoEmpty_iff
  have hFree := run.2.fifoFree_eq
  have hUsed := run.2.length_contents
  rw [hContents] at hEmpty hFree hUsed
  refine ⟨hAnswers, hContents, hLength, hUsed.symm, hFree,
    hEmpty, ?_⟩
  rw [hAnswers, hContents, hPushed, hPopped, hBehind,
    ← List.map_append, ← hKept, List.nil_append]

end Zedc
