import GenWqe.Hardware.Bookkeeping
import GenWqe.Inflate.Lengths

/-
  What the search for an empty stream ending recognises, and
  how much input it consumes.

  Key definitions include:
    * `searchWindow`, `firstBit`, `RecognisesEnding`
    * `ConsumesStream`, `CountsRight`

  Main results:
    * `scratchInv_of_reachable`
    * `recognises_ending_iff`
    * `consumes_stream_iff`
-/

------------------------------------------------------------
-- Reachable States
------------------------------------------------------------

namespace Hardware

open Zedc Bits BlockBits

/- The lengths are in order in every reachable state. -/
theorem scratchInv_of_reachable
    {disabled : Bool}
    {cfg : InflateConfig}
    {st : HInflate}
    (hReach : Reachable disabled cfg st) :
    ScratchInv st.s.h := by
  have hRule : StreamRule ScratchInv := by
    refine ⟨?_, ?_, ?_, ?_⟩
    · intro h _ _ _ _ hInv
      exact hInv.congr rfl id
    · intro flush env h ret hInv hCall
      exact zedcInflate_inv hInv hCall
    · intro len h bs h' hInv hRead
      unfold zedcReadPendingOutput at hRead
      split at hRead
      · cases hRead
        exact hInv
      · split at hRead
        · cases hRead
        · cases hRead
          exact hInv.congr rfl id
    · intro h _
      exact ⟨Nat.zero_lt_succ 7, fun _ => ⟨rfl, rfl⟩,
        Or.inl rfl⟩
  refine hRule.reachable ?_ ?_ ?_ hReach
  · intro h format
    exact ⟨Nat.zero_lt_succ 7, fun _ => ⟨rfl, rfl⟩,
      Or.inl rfl⟩
  · intro dictionary h hInv
    unfold zedcInflateSetDictionary
    split
    · exact hInv
    · split
      · exact hInv
      · exact hInv.congr rfl id
  · intro head h hInv
    exact hInv.congr rfl id

------------------------------------------------------------
-- What Is to Be Recognised
------------------------------------------------------------

/-
  The window the function is about: the bytes the save area
  holds, which is the scratch where there is no tree, and the
  input behind them.
-/
def searchWindow
    (h : InflStream) (nextIn : List UInt8) : List UInt8 :=
  (h.save.tree.window 0 (h.save.bits / 8) ++ nextIn).take
    endWindow

/- The first bit of it that is not processed. -/
def firstBit (h : InflStream) : Nat :=
  if h.save.scratchBits = 0 then 0 else h.save.scratchIb

/- Empty blocks from a bit of the window on. -/
def EndsAt
    (h : InflStream)
    (nextIn : List UInt8)
    (start : Nat) (kind : BlockKind) (last : Nat) : Prop :=
  EmptyEnding (bitsOf (searchWindow h nextIn)) start kind last

/- The stream with other contents of its save area. -/
def refill
    (tree : ByteMem) (h : InflStream) : InflStream :=
  { h with save := { h.save with tree := tree } }

/-
  For all contents of the scratch and of the input the search
  ends, and finds just the endings that start at the first bit
  that is not processed; else it changes nothing.
-/
def RecognisesEnding
    (disabled : Bool) (h : InflStream) : Prop :=
  ∀ (tree : ByteMem) (z : ZStream),
    ∃ rc h' z',
      checkStreamEnd disabled (refill tree h) z =
        some (rc, h', z') ∧
      (rc = .streamEnd ↔
        ∃ kind last,
          EndsAt (refill tree h) z.nextIn
            (firstBit h) kind last) ∧
      (rc ≠ .streamEnd →
        rc = .ok ∧
          h' = refill tree h ∧ z' = z)

------------------------------------------------------------
-- What Is Recognised
------------------------------------------------------------

section Search

variable {h : InflStream} {z : ZStream}

theorem streamEnding_d
    (h : InflStream) (nextIn : List UInt8) :
    (streamEnding h nextIn).d = searchWindow h nextIn := by
  simp only [streamEnding, searchWindow, List.take_append,
    ByteMem.length_window, ByteMem.take_window]
  congr 2
  · exact Nat.min_comm _ _
  · omega

theorem checkStreamEnd_search
    (hFormat : h.format = .defl)
    (hTree : h.save.treeBits = 0) :
    checkStreamEnd false h z =
      (endLoop (8 * endWindow) (streamEnding h z.nextIn)
        .ok).map fun found =>
          match found with
          | none => (.ok, h, z)
          | some e => syncAvailIn e h z := by
  unfold checkStreamEnd
  rw [if_neg (by decide), if_neg (not_not.mpr hFormat)]
  exact if_neg (not_not.mpr hTree)

/- The search finds what starts at `proc_bits`. -/
theorem checkStreamEnd_finds
    (hFormat : h.format = .defl)
    (hTree : h.save.treeBits = 0)
    (hLow : h.asv.procBits < 8) :
    (∃ kind last e,
      EndsAt h z.nextIn h.asv.procBits kind last ∧
      Behind (streamEnding h z.nextIn) e kind last ∧
      checkStreamEnd false h z =
        some (syncAvailIn e h z)) ∨
    ((∀ kind last,
        ¬ EndsAt h z.nextIn h.asv.procBits kind last) ∧
      checkStreamEnd false h z = some (.ok, h, z)) := by
  have hLen := length_streamEnding h z.nextIn
  have hBits :
      (streamEnding h z.nextIn).bits =
        bitsOf (searchWindow h z.nextIn) :=
    congrArg bitsOf (streamEnding_d h z.nextIn)
  have hPos :
      (streamEnding h z.nextIn).pos = h.asv.procBits :=
    Nat.zero_add _
  have hSpec :=
    endLoop_spec (e := streamEnding h z.nextIn)
      (8 * endWindow)
      (by
        unfold StreamEnding.bits
        rw [length_bitsOf, hLen]
        unfold endWindow
        omega)
      (by decide) hLow rfl
  rw [hBits, hPos] at hSpec
  rw [checkStreamEnd_search hFormat hTree]
  rcases hSpec with
    ⟨kind, last, e, hEnding, hBehind, hFound⟩ |
      ⟨hNone, hHome⟩
  · left
    refine ⟨kind, last, e, hEnding, hBehind, ?_⟩
    rw [hFound]
    rfl
  · right
    refine ⟨hNone, ?_⟩
    rw [hHome]
    rfl

end Search

------------------------------------------------------------
-- A Window That Tells Bits Apart
------------------------------------------------------------

/-
  A window of ones, but for an empty final block at a bit of
  its first byte.
-/
def lonelyEnd (start : Nat) : List UInt8 :=
  let bits := 0xffffff - 255 * 2 ^ (start + 2)
  [UInt8.ofNat (bits % 256), UInt8.ofNat (bits / 256 % 256),
      UInt8.ofNat (bits / 65536)] ++
    List.replicate 13 0xff

theorem length_lonelyEnd (start : Nat) :
    (lonelyEnd start).length = endWindow :=
  rfl

/- It ends there. -/
theorem lonelyEnd_ends
    {start : Nat}
    (hLow : start < 8) :
    EmptyEnding (bitsOf (lonelyEnd start)) start .fixed
      (start + 10) := by
  have hHere :
      ∀ start < 8,
        [true, true, false] <+:
            (bitsOf (lonelyEnd start)).drop start ∧
          endOfBlock <+:
            (bitsOf (lonelyEnd start)).drop (start + 3) := by
    decide
  rcases hHere start hLow with ⟨hHead, hBody⟩
  exact .final (.fixed hHead hBody)

/- No other bit of the first byte starts an empty block. -/
theorem lonelyEnd_other
    {start other : Nat}
    (hLow : start < 8)
    (hOther : other < 8)
    (hNe : other ≠ start)
    (kind : BlockKind) (last : Nat) :
    ¬ EmptyEnding (bitsOf (lonelyEnd start)) other kind
      last := by
  have hNowhere :
      ∀ start < 8, ∀ other < 8, other ≠ start →
        ¬ ([true, false] <+:
              (bitsOf (lonelyEnd start)).drop (other + 1) ∧
            endOfBlock <+:
              (bitsOf (lonelyEnd start)).drop (other + 3)) ∧
          ¬ [false, false, false, false, false, false, false,
                false, false] <+:
              (bitsOf (lonelyEnd start)).drop
                (byteAlign (other + 3)) := by
    decide
  rcases hNowhere start hLow other hOther hNe with
    ⟨hFixed, hStored⟩
  have hNone :
      ∀ final kind last,
        ¬ EmptyBlock (bitsOf (lonelyEnd start)) final other
          kind last := by
    intro final kind last hBlock
    cases hBlock with
    | fixed hHead hBody =>
        refine hFixed ⟨?_, hBody⟩
        rcases hHead with ⟨rest, hRest⟩
        refine ⟨rest, ?_⟩
        rw [← List.drop_drop, ← hRest]
        rfl
    | stored _ hBody =>
        exact hStored (List.IsPrefix.trans (by decide) hBody)
  intro hEnding
  cases hEnding with
  | final hBlock => exact hNone _ _ _ hBlock
  | skip hBlock _ => exact hNone _ _ _ hBlock

/- From behind the first byte nothing is found. -/
theorem lonelyEnd_behind
    {start : Nat}
    {e : StreamEnding}
    (fuel : Nat)
    (hLow : start < 8)
    (hData : e.d = lonelyEnd start)
    (hIdx : e.idx = 0)
    (hHigh : 8 ≤ e.procBits)
    (hState : e.state = .readHdr) :
    endLoop (fuel + 2) e .ok = some none := by
  have hFirst : endStep e .ok = endReadHdr e .ok := by
    unfold endStep
    rw [hState]
  rcases endReadHdr_cases e .ok with
    hHome | ⟨kind, ret, hOn, _, hKind⟩
  · exact endLoop_goHome _ (hFirst.trans hHome)
  -- the three bits read there are no header of a fixed block
  have hHeader :
      ∀ start < 8,
        (readFlat (bitsOf (lonelyEnd start)) 3 8
          (false, 0)).2 &&& 0x3 ≠ 2 := by
    decide
  have hRead :
      getBits e 3 =
        readFlat (bitsOf (lonelyEnd start)) 3 8
          (false, 0) := by
    rw [getBits_carry 3 hHigh, getBits_eq 3 (Nat.le_refl 8)]
    unfold StreamEnding.bits StreamEnding.pos
    simp only
    rw [hData, hIdx]
  have hStored : kind = .stored := by
    cases kind with
    | stored => rfl
    | fixed =>
        have hTwo := hKind rfl
        rw [hRead] at hTwo
        exact absurd hTwo (hHeader start hLow)
  subst hStored
  rw [endLoop_goOn _ (hFirst.trans hOn)]
  refine endLoop_goHome _ ?_
  -- its length would start at a byte behind the first one
  have hReader :
      (bodyReader .stored
        { dropBits 3 e with
          state := bodyState .stored }).procBits = 0 ∧
      0 < (bodyReader .stored
        { dropBits 3 e with
          state := bodyState .stored }).idx ∧
      (bodyReader .stored
        { dropBits 3 e with
          state := bodyState .stored }).d =
        lonelyEnd start := by
    have hMoved :
        (dropBits 3 e).d = lonelyEnd start ∧
          ((dropBits 3 e).procBits = 0 →
            0 < (dropBits 3 e).idx) := by
      refine ⟨(dropBits_same 3 e).d.trans hData, ?_⟩
      unfold dropBits
      split
      · intro hZero
        omega
      · intro _
        simp only
        omega
    unfold bodyReader syncToByte
    simp only
    split
    · rename_i hZero
      exact ⟨hZero, hMoved.2 hZero, hMoved.1⟩
    · exact ⟨rfl, Nat.zero_lt_succ _, hMoved.1⟩
  rw [endStep_body .stored _ rfl]
  generalize
    bodyReader .stored
        { dropBits 3 e with state := bodyState .stored } =
      reader at hReader ⊢
  rcases hReader with ⟨hZero, hPos, hBytes⟩
  refine endBlock_home (by omega) (emptyBody_ne_nil _) ?_
  intro hAhead
  have hBit :
      (bitsOf (lonelyEnd start))[8 * reader.idx + 15]? =
        some false := by
    have hPos' : reader.pos = 8 * reader.idx := by
      unfold StreamEnding.pos
      omega
    have hBits : reader.bits = bitsOf (lonelyEnd start) :=
      congrArg bitsOf hBytes
    rcases hAhead with ⟨rest, hRest⟩
    rw [hPos', hBits] at hRest
    rw [← List.getElem?_drop, ← hRest]
    rfl
  have hOnes :
      ∀ start < 8, ∀ i < 16, 2 ≤ i →
        (lonelyEnd start)[i]?.map
            (fun b => b.toNat.testBit 7) ≠ some false := by
    decide
  have hDiv : (8 * reader.idx + 15) / 8 = reader.idx + 1 := by
    omega
  have hMod : (8 * reader.idx + 15) % 8 = 7 := by
    omega
  rw [bitsOf_getElem?, hDiv, hMod] at hBit
  by_cases hInside : reader.idx + 1 < 16
  · exact hOnes start hLow _ hInside (by omega) hBit
  · have hLen := length_lonelyEnd start
    unfold endWindow at hLen
    rw [List.getElem?_eq_none (by omega)] at hBit
    cases hBit

/- A search that starts at another bit does not find it. -/
theorem lonelyEnd_search
    {start : Nat}
    {h : InflStream}
    {z : ZStream}
    (hLow : start < 8)
    (hWindow : searchWindow h z.nextIn = lonelyEnd start)
    (hFormat : h.format = .defl)
    (hTree : h.save.treeBits = 0)
    (hNe : h.asv.procBits ≠ start) :
    checkStreamEnd false h z = some (.ok, h, z) := by
  by_cases hByte : h.asv.procBits < 8
  · rcases checkStreamEnd_finds (z := z) hFormat hTree
        hByte with
      ⟨kind, last, _, hEnds, _⟩ | ⟨_, hHome⟩
    · unfold EndsAt at hEnds
      rw [hWindow] at hEnds
      exact absurd hEnds
        (lonelyEnd_other hLow hByte hNe kind last)
    · exact hHome
  · have hData := streamEnding_d h z.nextIn
    rw [hWindow] at hData
    have hHome :=
      lonelyEnd_behind (e := streamEnding h z.nextIn) 126
        hLow hData rfl (Nat.le_of_not_lt hByte) rfl
    rw [checkStreamEnd_search hFormat hTree]
    exact congrArg _ hHome

------------------------------------------------------------
-- When It Is Recognised
------------------------------------------------------------

/- A save area with the front of a window, and its rest. -/
theorem searchWindow_refill
    (w : List UInt8)
    (h : InflStream)
    (hLen : w.length = endWindow) :
    searchWindow (refill (fun i => w.getD i 0) h)
        (w.drop (h.save.bits / 8)) = w := by
  have hBits :
      (refill (fun i => w.getD i 0) h).save.bits =
        h.save.bits := rfl
  unfold searchWindow
  rw [hBits]
  apply List.ext_getElem?
  intro i
  by_cases hIn : i < endWindow
  · rw [List.getElem?_take_of_lt hIn]
    by_cases hFront : i < h.save.bits / 8
    · rw [List.getElem?_append_left
        (by rw [ByteMem.length_window]; exact hFront),
        ByteMem.window_getElem?, if_pos hFront, Nat.zero_add,
        List.getElem?_eq_getElem (by omega)]
      simp only [refill, List.getD_eq_getElem?_getD]
      rw [List.getElem?_eq_getElem (by omega)]
      rfl
    · rw [List.getElem?_append_right
        (by rw [ByteMem.length_window]; omega),
        ByteMem.length_window, List.getElem?_drop]
      congr 1
      omega
  · rw [List.getElem?_eq_none (by rw [List.length_take]; omega),
      List.getElem?_eq_none (by omega)]

/-
  The search is right exactly where it is made and starts with
  the first bit that is not processed.
-/
theorem recognises_ending_iff
    {disabled : Bool}
    {cfg : InflateConfig}
    {st : HInflate}
    (hReach : Reachable disabled cfg st)
    (hFormat : st.s.h.format = .defl)
    (hTree : st.s.h.save.treeBits = 0) :
    RecognisesEnding disabled st.s.h ↔
      disabled = false ∧
        st.s.h.asv.procBits = firstBit st.s.h := by
  have hInv := scratchInv_of_reachable hReach
  generalize st.s.h = h at *
  have hFirst : firstBit h < 8 := by
    have hIb := hInv.scratchIb
    unfold firstBit
    split <;> omega
  constructor
  · intro hAll
    have hLen := length_lonelyEnd (firstBit h)
    rcases hAll (fun i => (lonelyEnd (firstBit h)).getD i 0)
        { ZStream.initial with
          nextIn :=
            (lonelyEnd (firstBit h)).drop
              (h.save.bits / 8) } with
      ⟨rc, h', z', hRun, hIff, _⟩
    have hWindow := searchWindow_refill _ h hLen
    have hEnd : rc = .streamEnd := by
      refine hIff.mpr ⟨.fixed, firstBit h + 10, ?_⟩
      unfold EndsAt
      rw [hWindow]
      exact lonelyEnd_ends hFirst
    subst hEnd
    have hEnabled : disabled = false := by
      cases disabled with
      | false => rfl
      | true => cases hRun
    refine ⟨hEnabled, ?_⟩
    subst hEnabled
    by_contra hNe
    have hHome :=
      lonelyEnd_search
        (h := refill
          (fun i => (lonelyEnd (firstBit h)).getD i 0) h)
        (z := { ZStream.initial with
          nextIn :=
            (lonelyEnd (firstBit h)).drop
              (h.save.bits / 8) })
        hFirst hWindow hFormat hTree hNe
    cases hRun.symm.trans hHome
  · rintro ⟨rfl, hStart⟩ tree z
    have hFinds :=
      checkStreamEnd_finds (h := refill tree h) (z := z)
        hFormat hTree (hStart.trans_lt hFirst)
    have hStart' :
        (refill tree h).asv.procBits = firstBit h := hStart
    rw [hStart'] at hFinds
    rcases hFinds with
      ⟨kind, last, e, hEnds, _, hFound⟩ | ⟨hNone, hHome⟩
    · exact ⟨_, _, _, hFound,
        iff_of_true rfl ⟨kind, last, hEnds⟩,
        fun hNot => absurd rfl hNot⟩
    · refine ⟨_, _, _, hHome, iff_of_false nofun ?_,
        fun _ => ⟨rfl, rfl, rfl⟩⟩
      rintro ⟨kind, last, hEnds⟩
      exact hNone kind last hEnds

/- A block of one byte, the output of which fits. -/
def blockResp : InflResp :=
  { quietResp with
    inflStat := 0x01
    inpProcessed := 2
    procBits := 2
    outpReturned := 1
    outDictUsed := 1 }

/- Input with such a block, and space for its output. -/
def blockCall (nextIn : List UInt8) : HInflateOp :=
  .inflate
    ⟨nextIn, 1, .noFlush, fun _ => ⟨fun _ _ => blockResp⟩⟩

/- Behind the first of two blocks. -/
def oneBlock : HInflate :=
  ((blockCall [0x4a, 0x04, 0x28]).ret false 1 rawInflate).2

/- Behind the second of them. -/
def twoBlocks : HInflate :=
  ((blockCall [0x09, 0x30]).ret false 1 oneBlock).2

/- The last byte of the stream. -/
def lastByte : ZStream :=
  { twoBlocks.strm with nextIn := [0x00] }

theorem reachable_twoBlocks :
    Reachable false plainConfig twoBlocks := by
  have hFirst :
      ((blockCall [0x4a, 0x04, 0x28]).run false 1
        rawInflate).isSome := by
    decide
  have hSecond :
      ((blockCall [0x09, 0x30]).run false 1
        oneBlock).isSome := by
    decide
  exact (reachable_rawInflate.next hFirst).next hSecond

/-
  The scratch starts with bit 4, where the empty final block
  does; the card has processed two bits of its current byte.
-/
theorem ending_not_recognised :
    Reachable false plainConfig twoBlocks ∧
    twoBlocks.s.h.format = .defl ∧
    twoBlocks.s.h.save.treeBits = 0 ∧
    EndsAt twoBlocks.s.h lastByte.nextIn
      (firstBit twoBlocks.s.h) .fixed 14 ∧
    (checkStreamEnd false twoBlocks.s.h lastByte).map
        Prod.fst = some .ok := by
  refine ⟨reachable_twoBlocks, rfl, rfl, ?_, by decide⟩
  exact .final (.fixed (by decide) (by decide))

theorem recognises_ending_one :
    RecognisesEnding false oneBlock.s.h := by
  have hFirst :
      ((blockCall [0x4a, 0x04, 0x28]).run false 1
        rawInflate).isSome := by
    decide
  exact (recognises_ending_iff
    (reachable_rawInflate.next hFirst) rfl rfl).mpr
    ⟨rfl, by decide⟩

------------------------------------------------------------
-- How Much Is Consumed
------------------------------------------------------------

/-
  The bytes of the input up to the one with the last bit of a
  stream, which ends behind `last` bits of the window.
-/
def streamBytes (h : InflStream) (last : Nat) : Nat :=
  (last + 7) / 8 - h.save.bits / 8

/- Just these bytes are removed from the input, and counted. -/
structure ConsumesStream
    (h : InflStream) (z z' : ZStream) (last : Nat) :
    Prop where
  le : streamBytes h last ≤ z.nextIn.length
  nextIn : z'.nextIn = z.nextIn.drop (streamBytes h last)
  totalIn : z'.totalIn = z.totalIn + streamBytes h last

/-
  The stream ends with the bytes of the scratch, or with a
  fixed block more than a byte behind them, inside a byte or
  with the window.
-/
def CountFits
    (h : InflStream) (z : ZStream)
    (kind : BlockKind) (last : Nat) : Prop :=
  last ≤ 8 * (h.save.bits / 8) ∨
    kind = .fixed ∧ 8 * (h.save.bits / 8) + 8 < last ∧
      (last % 8 ≠ 0 ∨
        last = 8 * (searchWindow h z.nextIn).length)

/-
  The byte the reader stops at: that behind an ending, or the
  one in which its body starts where nothing is behind it.
-/
def stopByte
    (h : InflStream) (z : ZStream)
    (kind : BlockKind) (last : Nat) : Nat :=
  (if last < 8 * (searchWindow h z.nextIn).length then last
    else last - (emptyBody kind).length) / 8

/- The input bytes that are counted for an ending. -/
def countedBytes
    (h : InflStream) (z : ZStream)
    (kind : BlockKind) (last : Nat) : Nat :=
  if stopByte h z kind last ≤ h.save.bits / 8 then 0
  else stopByte h z kind last - h.save.bits / 8 + 1

/-
  The search starts with the first bit that is not processed,
  and the count fits the ending there. Or it starts with
  another bit, and what is counted for the ending that it
  finds there happens to be what the stream has.
-/
inductive CountsRight (h : InflStream) (z : ZStream) : Prop
  | here
      {kind : BlockKind} {last : Nat} :
      h.asv.procBits = firstBit h →
      EndsAt h z.nextIn (firstBit h) kind last →
      CountFits h z kind last →
      CountsRight h z
  | elsewhere
      {kind kind' : BlockKind} {last last' : Nat} :
      h.asv.procBits ≠ firstBit h →
      EndsAt h z.nextIn (firstBit h) kind last →
      EndsAt h z.nextIn h.asv.procBits kind' last' →
      countedBytes h z kind' last' = streamBytes h last →
      CountsRight h z

/- What is removed is there. -/
theorem EndChecked.offs_le
    {h : InflStream}
    {z : ZStream}
    {e : StreamEnding}
    (hChecked : EndChecked h z (syncAvailIn e h z)) :
    syncOffs e ≤ z.nextIn.length := by
  generalize hResult : syncAvailIn e h z = result at hChecked
  cases hChecked with
  | home => cases congrArg Prod.fst hResult
  | @found e' _ _ _ hLe =>
      have hTotal :=
        congrArg (fun result => result.2.2.totalIn) hResult
      have hSame : syncOffs e = syncOffs e' :=
        Nat.add_left_cancel hTotal
      exact hSame.trans_le hLe

theorem drop_eq_iff
    {α : Type*}
    {xs : List α}
    {m n : Nat}
    (hM : m ≤ xs.length)
    (hN : n ≤ xs.length) :
    xs.drop m = xs.drop n ↔ m = n := by
  constructor
  · intro hDrop
    have hLen := congrArg List.length hDrop
    simp only [List.length_drop] at hLen
    omega
  · rintro rfl
    rfl

/- Where the search has found the end, the count decides. -/
theorem consumes_iff_count
    {h : InflStream}
    {z : ZStream}
    {e : StreamEnding}
    {last : Nat}
    (hOffs : syncOffs e ≤ z.nextIn.length)
    (hIn : streamBytes h last ≤ z.nextIn.length) :
    ConsumesStream h z (syncAvailIn e h z).2.2 last ↔
      syncOffs e = streamBytes h last := by
  constructor
  · intro hConsumes
    exact (drop_eq_iff hOffs hIn).mp hConsumes.nextIn
  · intro hCount
    refine ⟨hIn, ?_, ?_⟩
    · simp only [syncAvailIn, hCount]
    · simp only [syncAvailIn, hCount]

section Count

variable {h : InflStream} {z : ZStream} {e : StreamEnding}
variable {kind : BlockKind} {start last : Nat}

theorem length_searchWindow
    (h : InflStream) (nextIn : List UInt8) :
    (searchWindow h nextIn).length =
      min endWindow (h.save.bits / 8 + nextIn.length) := by
  simp only [searchWindow, List.length_take,
    List.length_append, ByteMem.length_window]

/- A stream in the window ends in the input. -/
theorem streamBytes_le
    (hEnds : EndsAt h z.nextIn start kind last) :
    streamBytes h last ≤ z.nextIn.length := by
  have hBounds := hEnds.bounds
  have hLen := length_searchWindow h z.nextIn
  rw [length_bitsOf] at hBounds
  unfold streamBytes
  omega

/- The count is that of the ending that was found. -/
theorem syncOffs_eq
    (hEnds : EndsAt h z.nextIn start kind last)
    (hBehind :
      Behind (streamEnding h z.nextIn) e kind last) :
    syncOffs e = countedBytes h z kind last := by
  have hLen := length_searchWindow h z.nextIn
  have hBits :
      (streamEnding h z.nextIn).bits.length =
        8 * (searchWindow h z.nextIn).length := by
    unfold StreamEnding.bits
    rw [streamEnding_d, length_bitsOf]
  have hScratch :
      e.inHdrScratchLen = h.save.bits / 8 :=
    hBehind.scratch
  have hLow := hBehind.low
  have hPos := hBehind.pos
  rw [hBits] at hPos
  have hStop : stopByte h z kind last = e.idx := by
    unfold stopByte
    rw [← hPos]
    unfold StreamEnding.pos
    omega
  have hBounds := hEnds.bounds
  rw [length_bitsOf] at hBounds
  have hSmall : e.idx ≤ 16 := by
    have hLast : e.pos ≤ last := by
      rw [hPos]
      split <;> omega
    unfold StreamEnding.pos at hLast
    unfold endWindow at hLen
    omega
  unfold syncOffs countedBytes
  rw [hScratch, hStop]
  split
  · rfl
  · exact Nat.mod_eq_of_lt (by omega)

/- When what is counted is what the stream has. -/
theorem countedBytes_iff
    (hEnds : EndsAt h z.nextIn start kind last) :
    countedBytes h z kind last = streamBytes h last ↔
      CountFits h z kind last := by
  have hBounds := hEnds.bounds
  have hAligned := hEnds.aligned
  rw [length_bitsOf] at hBounds
  unfold countedBytes stopByte streamBytes CountFits
  generalize h.save.bits / 8 = scratchLen at *
  generalize (searchWindow h z.nextIn).length = len at *
  cases kind with
  | fixed =>
      simp only [emptyBody, endOfBlock,
        List.length_replicate, true_and]
      split <;> split <;> omega
  | stored =>
      have hWhole := hAligned rfl
      simp only [emptyBody, emptyStored, length_bitsOf,
        List.length_cons, List.length_nil, reduceCtorEq,
        false_and, or_false]
      split <;> split <;> omega

/- What the end of the stream costs, if it was found. -/
theorem consumes_iff
    (hEnds :
      EndsAt h z.nextIn h.asv.procBits kind last)
    (hBehind :
      Behind (streamEnding h z.nextIn) e kind last)
    (hOffs : syncOffs e ≤ z.nextIn.length) :
    (∃ kind last,
        EndsAt h z.nextIn (firstBit h) kind last ∧
          ConsumesStream h z (syncAvailIn e h z).2.2 last) ↔
      CountsRight h z := by
  have hCount := syncOffs_eq hEnds hBehind
  constructor
  · rintro ⟨kind', last', hEnds', hConsumes⟩
    have hSame := (consumes_iff_count hOffs
      (streamBytes_le hEnds')).mp hConsumes
    rw [hCount] at hSame
    by_cases hStart : h.asv.procBits = firstBit h
    · rw [hStart] at hEnds
      rcases hEnds.unique hEnds' with ⟨rfl, rfl⟩
      exact .here hStart hEnds
        ((countedBytes_iff hEnds).mp hSame)
    · exact .elsewhere hStart hEnds' hEnds hSame
  · intro hRight
    cases hRight with
    | here hStart hEnds' hFits =>
        rw [hStart] at hEnds
        rcases hEnds.unique hEnds' with ⟨rfl, rfl⟩
        refine ⟨_, _, hEnds, ?_⟩
        rw [consumes_iff_count hOffs (streamBytes_le hEnds),
          hCount]
        exact (countedBytes_iff hEnds).mpr hFits
    | elsewhere _ hEnds' hFound hSame =>
        rcases hEnds.unique hFound with ⟨rfl, rfl⟩
        refine ⟨_, _, hEnds', ?_⟩
        rw [consumes_iff_count hOffs (streamBytes_le hEnds'),
          hCount]
        exact hSame

/-
  Whenever the end is found, by a card that counts processed
  bits of its current byte: the stream does end in the window,
  and the bytes removed are just those up to its last bit,
  exactly if the count is right. Never more is removed than
  there is.
-/
theorem consumes_stream_iff
    {disabled : Bool}
    {h' : InflStream}
    {z' : ZStream}
    (hCard : h.asv.procBits < 8)
    (hFound :
      checkStreamEnd disabled h z =
        some (.streamEnd, h', z')) :
    ((∃ kind last,
        EndsAt h z.nextIn (firstBit h) kind last ∧
          ConsumesStream h z z' last) ↔
      CountsRight h z) ∧
    ∃ n ≤ z.nextIn.length,
      z'.nextIn = z.nextIn.drop n ∧
        z'.totalIn = z.totalIn + n := by
  have hEnabled : disabled = false := by
    cases disabled with
    | false => rfl
    | true => cases hFound
  subst hEnabled
  have hFormat : h.format = .defl := by
    by_contra hOther
    unfold checkStreamEnd at hFound
    rw [if_neg (by decide), if_pos hOther] at hFound
    cases hFound
  have hTree : h.save.treeBits = 0 := by
    by_contra hOther
    unfold checkStreamEnd at hFound
    rw [if_neg (by decide), if_neg (not_not.mpr hFormat),
      if_pos hOther] at hFound
    cases hFound
  rcases checkStreamEnd_checked false h z with
    ⟨result, hResult, hChecked⟩
  rcases checkStreamEnd_finds (z := z) hFormat hTree hCard with
    ⟨kind, last, e, hEnds, hBehind, hEnd⟩ | ⟨_, hHome⟩
  · have hSame :
        (Rc.streamEnd, h', z') = syncAvailIn e h z :=
      Option.some.inj (hFound.symm.trans hEnd)
    have hState : z' = (syncAvailIn e h z).2.2 :=
      congrArg (fun result => result.2.2) hSame
    have hOffs : syncOffs e ≤ z.nextIn.length := by
      have hRun := Option.some.inj (hResult.symm.trans hEnd)
      subst hRun
      exact hChecked.offs_le
    subst hState
    exact ⟨consumes_iff hEnds hBehind hOffs,
      syncOffs e, hOffs, rfl, rfl⟩
  · rw [hHome] at hFound
    cases hFound

end Count

/- Behind a block, with the start of an empty final one. -/
def endAhead : HInflate :=
  ((blockCall [0x4a, 0x04, 0x0c]).ret false 1 rawInflate).2

/- The last byte of the stream, and one behind it. -/
def appended : ZStream :=
  { endAhead.strm with nextIn := [0x00, 0x99] }

/-
  The stream ends in the input's first byte, but that byte
  stays where it is.
-/
theorem stream_not_consumed :
    Reachable false plainConfig endAhead ∧
    EndsAt endAhead.s.h appended.nextIn
      (firstBit endAhead.s.h) .fixed 12 ∧
    endAhead.s.h.asv.procBits = firstBit endAhead.s.h ∧
    checkStreamEnd false endAhead.s.h appended =
      some (.streamEnd, endAhead.s.h, appended) ∧
    streamBytes endAhead.s.h 12 = 1 ∧
    ¬ ∃ kind last,
      EndsAt endAhead.s.h appended.nextIn
          (firstBit endAhead.s.h) kind last ∧
        ConsumesStream endAhead.s.h appended appended
          last := by
  have hFirst :
      ((blockCall [0x4a, 0x04, 0x0c]).run false 1
        rawInflate).isSome := by
    decide
  have hEnds :
      EndsAt endAhead.s.h appended.nextIn
        (firstBit endAhead.s.h) .fixed 12 :=
    .final (.fixed (by decide) (by decide))
  refine ⟨reachable_rawInflate.next hFirst, hEnds, by decide,
    by rfl, by decide, ?_⟩
  rintro ⟨kind, last, hEnds', hConsumes⟩
  rcases hEnds.unique hEnds' with ⟨rfl, rfl⟩
  have hOne := hConsumes.nextIn
  revert hOne
  decide

/- Nothing but an empty final block. -/
def emptyStream : ZStream :=
  { ZStream.initial with nextIn := [0x03, 0x00] }

/- With the input consumed. -/
def emptyConsumed : ZStream :=
  { emptyStream with nextIn := [], totalIn := 2 }

theorem consumes_stream_empty :
    ∃ kind last,
      EndsAt rawInflate.s.h emptyStream.nextIn
          (firstBit rawInflate.s.h) kind last ∧
        ConsumesStream rawInflate.s.h emptyStream
          emptyConsumed last := by
  have hFound :
      checkStreamEnd false rawInflate.s.h emptyStream =
        some (.streamEnd,
          resetHdrScratchLen rawInflate.s.h,
          emptyConsumed) := by
    rfl
  have hEnds :
      EndsAt rawInflate.s.h emptyStream.nextIn
        (firstBit rawInflate.s.h) .fixed 10 :=
    .final (.fixed (by decide) (by decide))
  exact (consumes_stream_iff (by decide) hFound).1.mpr
    (.here (by decide) hEnds
      (Or.inr ⟨rfl, by decide, Or.inl (by decide)⟩))

end Hardware
