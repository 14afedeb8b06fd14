import Mathlib.Tactic

/-
  A ring of `n` slots with an output and an input index,
  seen as the queue of what its occupied slots hold.

  Key definitions include:
    * `RingQueue`

  Main results:
    * `RingQueue.occupied_iff`
    * `RingQueue.card_occupied`
    * `RingQueue.queue_eq`
    * `RingQueue.free_at_input`
    * `RingQueue.push`
    * `RingQueue.pop`
-/

------------------------------------------------------------
-- Positions Modulo the Size
------------------------------------------------------------

/- Within one turn of the ring, positions differ. -/
theorem ring_position_inj
    {n out i k : Nat}
    (hIn : i < n)
    (hKn : k < n)
    (hSame : (out + i) % n = (out + k) % n) :
    i = k := by
  have hMod : i ≡ k [MOD n] :=
    Nat.ModEq.add_left_cancel' out hSame
  have hEq : i % n = k % n := hMod
  rwa [Nat.mod_eq_of_lt hIn, Nat.mod_eq_of_lt hKn] at hEq

/- Every slot is some way behind the output index. -/
theorem ring_position_surj
    {n out i : Nat}
    (hOut : out < n)
    (hIn : i < n) :
    ∃ k < n, i = (out + k) % n := by
  by_cases hBehind : out ≤ i
  · refine ⟨i - out, by omega, ?_⟩
    rw [Nat.add_sub_cancel' hBehind, Nat.mod_eq_of_lt hIn]
  · refine ⟨i + n - out, by omega, ?_⟩
    have hTurn : out + (i + n - out) = i + n := by omega
    rw [hTurn, Nat.add_mod_right, Nat.mod_eq_of_lt hIn]

theorem ring_position_succ
    (n out k : Nat) :
    ((out + 1) % n + k) % n = (out + (k + 1)) % n := by
  rw [Nat.mod_add_mod]
  congr 1
  omega

/- Reading a list at all its positions gives the list. -/
theorem filterMap_getElem?_range
    {α : Type*}
    (l : List α) :
    (List.range l.length).filterMap (fun k => l[k]?) = l := by
  induction l with
  | nil => rfl
  | cons a l ih =>
      rw [List.length_cons, List.range_succ_eq_map,
        List.filterMap_cons, List.filterMap_map]
      simp only [List.getElem?_cons_zero]
      congr 1

------------------------------------------------------------
-- Rings as Queues
------------------------------------------------------------

/-
  The slots from `out` on hold the queue, in order, and no
  other slot holds anything; `inn` is the slot behind them.
-/
structure RingQueue {α : Type*} (n : Nat)
    (out inn : Nat)
    (slot : Nat → Option α)
    (queue : List α) : Prop where
  out_lt : out < n
  length_le : queue.length ≤ n
  inn_eq : inn = (out + queue.length) % n
  slots : ∀ k < n, slot ((out + k) % n) = queue[k]?

namespace RingQueue

variable {α : Type*} {n out inn : Nat}
variable {slot : Nat → Option α} {queue : List α}

/- A ring whose slots are all free is the empty queue. -/
theorem empty
    (hSize : 0 < n)
    (hFree : ∀ i < n, slot i = none) :
    RingQueue n 0 0 slot [] where
  out_lt := hSize
  length_le := Nat.zero_le _
  inn_eq := by simp
  slots := fun k _ => by
    rw [hFree _ (Nat.mod_lt _ hSize)]
    rfl

theorem inn_lt
    (hRing : RingQueue n out inn slot queue) :
    inn < n := by
  rw [hRing.inn_eq]
  exact Nat.mod_lt _ (Nat.zero_lt_of_lt hRing.out_lt)

/- The output index points at the head of the queue. -/
theorem at_output
    (hRing : RingQueue n out inn slot queue) :
    slot out = queue.head? := by
  have hZero := hRing.slots 0 (Nat.zero_lt_of_lt hRing.out_lt)
  rwa [Nat.add_zero, Nat.mod_eq_of_lt hRing.out_lt,
    ← List.head?_eq_getElem?] at hZero

/- The occupied slots are those from `out` up to `inn`. -/
theorem occupied_iff
    (hRing : RingQueue n out inn slot queue)
    {i : Nat}
    (hIn : i < n) :
    slot i ≠ none ↔
      ∃ k < queue.length, i = (out + k) % n := by
  have hLength := hRing.length_le
  constructor
  · intro hSome
    rcases ring_position_surj hRing.out_lt hIn with
      ⟨k, hLt, rfl⟩
    rw [hRing.slots k hLt, ne_eq,
      List.getElem?_eq_none_iff] at hSome
    exact ⟨k, by omega, rfl⟩
  · rintro ⟨k, hLt, rfl⟩
    rw [hRing.slots k (by omega), ne_eq,
      List.getElem?_eq_none_iff]
    omega

/- There are as many occupied slots as queued entries. -/
theorem card_occupied
    (hRing : RingQueue n out inn slot queue) :
    ((Finset.range n).filter
      fun i => (slot i).isSome).card = queue.length := by
  have hImage :
      (Finset.range n).filter (fun i => (slot i).isSome) =
        (Finset.range queue.length).image
          (fun k => (out + k) % n) := by
    ext i
    rw [Finset.mem_filter, Finset.mem_image,
      Finset.mem_range]
    constructor
    · rintro ⟨hIn, hSome⟩
      rcases (hRing.occupied_iff hIn).mp
        (Option.isSome_iff_ne_none.mp hSome) with
        ⟨k, hLt, rfl⟩
      exact ⟨k, Finset.mem_range.mpr hLt, rfl⟩
    · rintro ⟨k, hMem, rfl⟩
      have hLt := Nat.mod_lt (out + k)
        (Nat.zero_lt_of_lt hRing.out_lt)
      refine ⟨hLt, Option.isSome_iff_ne_none.mpr ?_⟩
      exact (hRing.occupied_iff hLt).mpr
        ⟨k, Finset.mem_range.mp hMem, rfl⟩
  rw [hImage, Finset.card_image_of_injOn,
    Finset.card_range]
  intro i hI k hK hSame
  have hLength := hRing.length_le
  rw [Finset.coe_range, Set.mem_Iio] at hI hK
  exact ring_position_inj (by omega) (by omega) hSame

/- The queue is read off the slots, from `out` on. -/
theorem queue_eq
    (hRing : RingQueue n out inn slot queue) :
    queue =
      (List.range queue.length).filterMap
        (fun k => slot ((out + k) % n)) := by
  have hLength := hRing.length_le
  have hSlots :
      (List.range queue.length).filterMap
          (fun k => slot ((out + k) % n)) =
        (List.range queue.length).filterMap
          (fun k => queue[k]?) := by
    apply List.filterMap_congr
    intro k hMem
    have hLt := List.mem_range.mp hMem
    exact hRing.slots k (by omega)
  rw [hSlots]
  exact (filterMap_getElem?_range queue).symm

/- While the ring is not full, the slot at `inn` is free. -/
theorem free_at_input
    (hRing : RingQueue n out inn slot queue)
    (hRoom : queue.length < n) :
    slot inn = none := by
  rw [hRing.inn_eq, hRing.slots _ hRoom]
  exact List.getElem?_eq_none (Nat.le_refl _)

/- Filling the slot at `inn` appends to the queue. -/
theorem push
    (hRing : RingQueue n out inn slot queue)
    (hRoom : queue.length < n)
    (a : α) :
    RingQueue n out ((inn + 1) % n)
      (Function.update slot inn (some a))
      (queue ++ [a]) where
  out_lt := hRing.out_lt
  length_le := by
    rw [List.length_append, List.length_singleton]
    exact hRoom
  inn_eq := by
    rw [hRing.inn_eq, Nat.mod_add_mod, List.length_append,
      List.length_singleton, Nat.add_assoc]
  slots := by
    intro k hLt
    rw [hRing.inn_eq]
    by_cases hLast : k = queue.length
    · subst hLast
      rw [Function.update_self]
      simp
    · have hOther :
          (out + k) % n ≠ (out + queue.length) % n :=
        fun hSame =>
          hLast (ring_position_inj hLt hRoom hSame)
      rw [Function.update_of_ne hOther, hRing.slots k hLt]
      by_cases hBefore : k < queue.length
      · rw [List.getElem?_append_left hBefore]
      · rw [List.getElem?_eq_none (by omega),
          List.getElem?_eq_none (by simp; omega)]

/- Freeing the slot at `out` removes the head. -/
theorem pop
    {a : α} {rest : List α}
    (hRing : RingQueue n out inn slot (a :: rest)) :
    RingQueue n ((out + 1) % n) inn
      (Function.update slot out none) rest where
  out_lt := Nat.mod_lt _ (Nat.zero_lt_of_lt hRing.out_lt)
  length_le := by
    have hLength := hRing.length_le
    rw [List.length_cons] at hLength
    omega
  inn_eq := by
    rw [hRing.inn_eq, ring_position_succ, List.length_cons]
  slots := by
    intro k hLt
    have hOut := hRing.out_lt
    have hLength := hRing.length_le
    rw [List.length_cons] at hLength
    rw [ring_position_succ]
    have hHead : out = (out + 0) % n := by
      rw [Nat.add_zero, Nat.mod_eq_of_lt hOut]
    by_cases hTurn : k + 1 = n
    · have hBack : (out + (k + 1)) % n = out := by
        rw [hTurn, Nat.add_mod_right, Nat.mod_eq_of_lt hOut]
      rw [hBack, Function.update_self,
        List.getElem?_eq_none (by omega)]
    · have hOther : (out + (k + 1)) % n ≠ out := by
        intro hSame
        have hZero : k + 1 = 0 :=
          ring_position_inj (by omega) (by omega)
            (hSame.trans hHead)
        omega
      rw [Function.update_of_ne hOther,
        hRing.slots (k + 1) (by omega),
        List.getElem?_cons_succ]

end RingQueue
