import GenWqe.Lib.ByteMem
import GenWqe.Zedc.Codes

/-
  The byte FIFO of `deflate_fifo.h`, which holds output that
  did not fit into the user's buffer: a ring of 256 bytes of
  which 255 are used, seen as a bounded queue.

  Key definitions include:
    * `ZedcFifo` and its operations
    * `ZedcFifo.contents`

  Main results:
    * `ZedcFifo.contents_fifoPush`
    * `ZedcFifo.contents_fifoPushAll`
    * `ZedcFifo.contents_of_fifoPop`
-/

------------------------------------------------------------
-- The Ring
------------------------------------------------------------

namespace Zedc

/- `ZEDC_FIFO_SIZE` -/
def zedcFifoSize : Nat := 256

/- Both indices stay inside the storage. -/
structure ZedcFifo where
  push : Nat
  pop : Nat
  fifo : ByteMem
  push_lt : push < zedcFifoSize
  pop_lt : pop < zedcFifoSize

namespace ZedcFifo

/- `fifo_init` -/
def fifoInit : ZedcFifo where
  push := 0
  pop := 0
  fifo := fun _ => 0
  push_lt := by decide
  pop_lt := by decide

/- `fifo_empty` -/
def fifoEmpty (f : ZedcFifo) : Bool :=
  f.pop == f.push

/- `fifo_used`; masking is the remainder modulo the size. -/
def fifoUsed (f : ZedcFifo) : Nat :=
  wrapSub 32 f.push f.pop % zedcFifoSize

/- `fifo_free`: one byte is always kept free. -/
def fifoFree (f : ZedcFifo) : Nat :=
  zedcFifoSize - f.fifoUsed - 1

/- The index update of `fifo_push`, whatever is free. -/
def put (f : ZedcFifo) (data : UInt8) : ZedcFifo where
  push := (f.push + 1) % zedcFifoSize
  pop := f.pop
  fifo := f.fifo.store f.push [data]
  push_lt := Nat.mod_lt _ (by decide)
  pop_lt := f.pop_lt

/-
  `fifo_push`. Its return value, the number of bytes stored,
  is looked at by no caller.
-/
def fifoPush (f : ZedcFifo) (data : UInt8) : ZedcFifo :=
  if f.fifoFree < 1 then f else f.put data

/-
  `fifo_push32` on the four bytes as they lie in memory, all
  of them or none.
-/
def fifoPush32 (f : ZedcFifo) (data : List UInt8) :
    ZedcFifo :=
  if f.fifoFree < 4 then f else data.foldl put f

/- A loop of `fifo_push` calls over a byte string. -/
def fifoPushAll (f : ZedcFifo) (data : List UInt8) :
    ZedcFifo :=
  data.foldl fifoPush f

/- `fifo_pop` -/
def fifoPop (f : ZedcFifo) : Option (UInt8 × ZedcFifo) :=
  if f.fifoEmpty then none
  else
    some (f.fifo f.pop,
      { f with
        pop := (f.pop + 1) % zedcFifoSize
        pop_lt := Nat.mod_lt _ (by decide) })

------------------------------------------------------------
-- The Queue
------------------------------------------------------------

/- The bytes pushed and not yet popped, oldest first. -/
def contents (f : ZedcFifo) : List UInt8 :=
  (List.range f.fifoUsed).map
    (fun i => f.fifo ((f.pop + i) % zedcFifoSize))

theorem fifoUsed_eq (f : ZedcFifo) :
    f.fifoUsed =
      (f.push + zedcFifoSize - f.pop) % zedcFifoSize := by
  have hPush := f.push_lt
  have hPop := f.pop_lt
  unfold fifoUsed
  simp only [zedcFifoSize] at *
  by_cases hle : f.pop ≤ f.push
  · rw [wrapSub_of_le hle (by omega)]
    omega
  · rw [wrapSub_of_lt (by omega) (by omega)]
    omega

@[simp] theorem length_contents (f : ZedcFifo) :
    f.contents.length = f.fifoUsed := by
  simp [contents]

theorem fifoUsed_lt (f : ZedcFifo) :
    f.fifoUsed < zedcFifoSize :=
  Nat.mod_lt _ (by decide)

/- The FIFO reports empty exactly for the empty queue. -/
theorem fifoEmpty_iff (f : ZedcFifo) :
    f.fifoEmpty = true ↔ f.contents = [] := by
  have hPush := f.push_lt
  have hPop := f.pop_lt
  rw [← List.length_eq_zero_iff, length_contents,
    fifoUsed_eq, fifoEmpty, beq_iff_eq]
  simp only [zedcFifoSize] at *
  omega

@[simp] theorem contents_fifoInit :
    fifoInit.contents = [] := by
  rw [← fifoEmpty_iff]
  rfl

theorem fifoFree_eq (f : ZedcFifo) :
    f.fifoFree = 255 - f.contents.length := by
  have hUsed := f.fifoUsed_lt
  rw [length_contents]
  simp only [fifoFree, zedcFifoSize] at *
  omega

/- One more byte behind the queue, where there is room. -/
theorem contents_put
    (f : ZedcFifo) (data : UInt8)
    (hRoom : f.contents.length < 255) :
    (f.put data).contents = f.contents ++ [data] := by
  have hPush := f.push_lt
  have hPop := f.pop_lt
  rw [length_contents] at hRoom
  have hEq := f.fifoUsed_eq
  have hUsed : (f.put data).fifoUsed = f.fifoUsed + 1 := by
    rw [fifoUsed_eq, hEq]
    simp only [put, zedcFifoSize] at *
    omega
  unfold contents
  rw [hUsed, List.range_succ, List.map_append]
  congr 1
  · apply List.map_congr_left
    intro i hi
    have hLt : i < f.fifoUsed := List.mem_range.mp hi
    apply ByteMem.store_outside
    simp only [put, zedcFifoSize, List.length_singleton]
      at *
    omega
  · have hAt :
        (f.pop + f.fifoUsed) % zedcFifoSize = f.push := by
      simp only [zedcFifoSize] at *
      omega
    simp only [put, List.map_cons, List.map_nil, hAt]
    rw [ByteMem.store_inside _ (Nat.le_refl _) (by simp)]
    simp

/- `fifo_push` appends while fewer than 255 bytes wait. -/
theorem contents_fifoPush
    (f : ZedcFifo) (data : UInt8)
    (hRoom : f.contents.length < 255) :
    (f.fifoPush data).contents = f.contents ++ [data] := by
  unfold fifoPush
  rw [if_neg (by rw [fifoFree_eq]; omega)]
  exact contents_put f data hRoom

/- A loop of pushes that fits appends the whole string. -/
theorem contents_fifoPushAll
    (f : ZedcFifo) (data : List UInt8)
    (hRoom : f.contents.length + data.length ≤ 255) :
    (f.fifoPushAll data).contents =
      f.contents ++ data := by
  induction data generalizing f with
  | nil => simp [fifoPushAll]
  | cons b data ih =>
      simp only [List.length_cons] at hRoom
      have hHead := contents_fifoPush f b (by omega)
      have hTail := ih (f.fifoPush b) (by
        rw [hHead, List.length_append, List.length_singleton]
        omega)
      rw [hHead, List.append_assoc] at hTail
      simpa [fifoPushAll] using hTail

/- `fifo_push32` appends its four bytes where they fit. -/
theorem contents_fifoPush32
    (f : ZedcFifo) (data : List UInt8)
    (hData : data.length = 4)
    (hRoom : f.contents.length + 4 ≤ 255) :
    (f.fifoPush32 data).contents = f.contents ++ data := by
  unfold fifoPush32
  rw [if_neg (by rw [fifoFree_eq]; omega)]
  have hFold :
      ∀ (data : List UInt8) (f : ZedcFifo),
        f.contents.length + data.length ≤ 255 →
          (data.foldl put f).contents =
            f.contents ++ data := by
    intro data
    induction data with
    | nil => simp
    | cons b data ih =>
        intro f hFits
        simp only [List.length_cons] at hFits
        have hHead := contents_put f b (by omega)
        rw [List.foldl_cons, ih (f.put b) (by
          rw [hHead, List.length_append,
            List.length_singleton]
          omega), hHead, List.append_assoc]
        rfl
  exact hFold data f (by omega)

theorem fifoPop_eq_none_iff (f : ZedcFifo) :
    f.fifoPop = none ↔ f.contents = [] := by
  rw [← fifoEmpty_iff]
  unfold fifoPop
  split <;> simp_all

/- `fifo_pop` takes the oldest byte off the queue. -/
theorem contents_of_fifoPop
    {f f' : ZedcFifo} {data : UInt8}
    (hPop : f.fifoPop = some (data, f')) :
    f.contents = data :: f'.contents := by
  have hPushLt := f.push_lt
  have hPopLt := f.pop_lt
  unfold fifoPop at hPop
  split at hPop
  · cases hPop
  · rename_i hNonempty
    simp only [Option.some.injEq, Prod.mk.injEq] at hPop
    rcases hPop with ⟨rfl, rfl⟩
    have hNe : f.pop ≠ f.push := by
      simpa [fifoEmpty] using hNonempty
    have hEq := f.fifoUsed_eq
    have hUsed :
        f.fifoUsed =
          fifoUsed
            { f with
              pop := (f.pop + 1) % zedcFifoSize
              pop_lt := Nat.mod_lt _ (by decide) } + 1 := by
      rw [fifoUsed_eq, fifoUsed_eq]
      simp only [zedcFifoSize] at *
      omega
    unfold contents
    rw [hUsed, List.range_succ_eq_map, List.map_cons,
      List.map_map]
    congr 1
    · simp [Nat.mod_eq_of_lt hPopLt]
    · apply List.map_congr_left
      intro i _
      simp only [Function.comp_apply, zedcFifoSize]
      congr 1
      omega

end ZedcFifo

end Zedc
