import GenWqe.Hardware.Stream
import GenWqe.Inflate.Decompress
import GenWqe.Lib.EmptyBlocks

/-
  `__check_stream_end`, which looks for an empty final block
  in the input that a raw deflate stream has not processed.

  Key definitions include:
    * `StreamEnding`, `getBits`, `dropBits`
    * `endStep`, `endLoop`
    * `checkStreamEnd`

  Main results:
    * `endLoop_block`, `endLoop_other`
    * `endLoop_spec`
    * `endLoop_terminates`
    * `checkStreamEnd_checked`
-/

------------------------------------------------------------
-- The Bit Reader
------------------------------------------------------------

namespace Hardware

open Zedc Bits BlockBits

/- The states of the parser; a dynamic block stops it. -/
inductive EndState where
  | readHdr
  | copyBlock
  | fixedHuffman
  deriving DecidableEq

/-
  `struct stream_ending`. `d` are its `avail_in` bytes, so
  that `remaining_bytes` is what 16 bytes leave.
-/
structure StreamEnding where
  d : List UInt8
  procBits : Nat
  idx : Nat
  inHdrScratchLen : Nat
  state : EndState

/- One more bit of `data`, and a mark if there is none. -/
def takeBit
    (d : List UInt8) (idx procBits : Nat)
    (acc : Bool × Nat) : Bool × Nat :=
  match d[idx]? with
  | none => (true, 2 * acc.2)
  | some byte =>
      (acc.1,
        2 * acc.2 + (byte.toNat.testBit procBits).toNat)

/-
  The loops of `get_bits`: the inner one ends with a byte, the
  outer one goes on with bit 0 of the next.
-/
def getBitsLoop (d : List UInt8) :
    Nat → Nat → Nat → Bool × Nat → Bool × Nat
  | 0, _, _, acc => acc
  | bits + 1, idx, procBits, acc =>
      if procBits < 8 then
        getBitsLoop d bits idx (procBits + 1)
          (takeBit d idx procBits acc)
      else
        getBitsLoop d bits (idx + 1) 1
          (takeBit d (idx + 1) 0 acc)

/- `get_bits`: its return value, and the bits. -/
def getBits (e : StreamEnding) (bits : Nat) : Bool × Nat :=
  getBitsLoop e.d bits e.idx e.procBits (false, 0)

/- `drop_bits`, which does not move to the end of the data. -/
def dropBits (bits : Nat) (e : StreamEnding) : StreamEnding :=
  if e.idx + (e.procBits + bits) / 8 ≥ e.d.length then e
  else
    { e with
      idx := e.idx + (e.procBits + bits) / 8
      procBits := (e.procBits + bits) % 8 }

/- `sync_to_byte` -/
def syncToByte (e : StreamEnding) : StreamEnding :=
  if e.procBits = 0 then e
  else { e with procBits := 0, idx := e.idx + 1 }

------------------------------------------------------------
-- The Parser
------------------------------------------------------------

/- Where a state leads: out, to the sync, or on. -/
inductive EndStep where
  | goHome
  | syncAvailIn (e : StreamEnding)
  | goOn (e : StreamEnding) (ret : Rc)

/- The case `READ_HDR`. -/
def endReadHdr (e : StreamEnding) (ret : Rc) : EndStep :=
  match getBits e 3 with
  | (true, _) => .goHome
  | (false, d) =>
    let e := dropBits 3 e
    let ret := if d &&& 0x4 ≠ 0 then .streamEnd else ret
    match d &&& 0x3 with
    | 0 => .goOn { e with state := .copyBlock } ret
    | 2 => .goOn { e with state := .fixedHuffman } ret
    | _ => .goHome

/-
  The cases `FIXED_HUFFMAN` and `COPY_BLOCK`, with the bits
  that an empty block consists of.
-/
def endBlock
    (bits required : Nat)
    (e : StreamEnding) (ret : Rc) : EndStep :=
  match getBits e bits with
  | (true, _) => .goHome
  | (false, d) =>
    let e := dropBits bits e
    if d ≠ required then .goHome
    else if ret = .streamEnd then
      .syncAvailIn { e with state := .readHdr }
    else .goOn { e with state := .readHdr } ret

/- One turn of the loop. -/
def endStep (e : StreamEnding) (ret : Rc) : EndStep :=
  match e.state with
  | .readHdr => endReadHdr e ret
  | .fixedHuffman => endBlock 7 0x0 e ret
  | .copyBlock => endBlock 32 0x0000ffff (syncToByte e) ret

/-
  At most `fuel` turns of the loop; it ends at `go_home`, or
  at `sync_avail_in` with what is found there.
-/
def endLoop :
    Nat → StreamEnding → Rc → Option (Option StreamEnding)
  | 0, _, _ => none
  | fuel + 1, e, ret =>
      match endStep e ret with
      | .goHome => some none
      | .syncAvailIn e => some (some e)
      | .goOn e ret => endLoop fuel e ret

/- The size of `d`. -/
def endWindow : Nat := 16

/- Scratch and input in one contiguous buffer. -/
def streamEnding
    (h : InflStream) (nextIn : List UInt8) : StreamEnding :=
  let inHdrScratchLen := h.save.bits / 8
  let len := min inHdrScratchLen endWindow
  { d :=
      h.save.tree.window 0 len ++
        nextIn.take (endWindow - len)
    procBits := h.asv.procBits
    idx := 0
    inHdrScratchLen := inHdrScratchLen
    state := .readHdr }

/- The count of input bytes, an `uint8_t`. -/
def syncOffs (e : StreamEnding) : Nat :=
  if e.idx ≤ e.inHdrScratchLen then 0
  else (e.idx - e.inHdrScratchLen + 1) % 2 ^ 8

/- `__reset_hdr_scratch_len` -/
def resetHdrScratchLen (h : InflStream) : InflStream :=
  { h with
    save :=
      { h.save with
        hdrIb := 0
        treeBits := 0
        padBits := 0
        scratchIb := 0
        scratchBits := 0 } }

/- The part behind `sync_avail_in`. -/
def syncAvailIn
    (e : StreamEnding) (h : InflStream) (z : ZStream) :
    Rc × InflStream × ZStream :=
  (.streamEnd,
    if e.idx ≤ e.inHdrScratchLen then h
    else resetHdrScratchLen h,
    { z with
      nextIn := z.nextIn.drop (syncOffs e)
      totalIn := z.totalIn + syncOffs e })

/-
  `__check_stream_end`. `disabled` is the flag
  `ZLIB_FLAG_DISABLE_CV_FOR_Z_STREAM_END`.
-/
def checkStreamEnd
    (disabled : Bool) (h : InflStream) (z : ZStream) :
    Option (Rc × InflStream × ZStream) :=
  if disabled then some (.ok, h, z)
  else if h.format ≠ .defl then some (.ok, h, z)
  else if h.save.treeBits ≠ 0 then some (.ok, h, z)
  else
    (endLoop (8 * endWindow) (streamEnding h z.nextIn)
        .ok).map fun found =>
      match found with
      | none => (.ok, h, z)
      | some e => syncAvailIn e h z

------------------------------------------------------------
-- Reading Bits
------------------------------------------------------------

/- The position of the reader, in bits. -/
def StreamEnding.pos (e : StreamEnding) : Nat :=
  8 * e.idx + e.procBits

/- Reading bits of a bit string, the missing ones as zero. -/
def readFlat (w : List Bool) :
    Nat → Nat → Bool × Nat → Bool × Nat
  | 0, _, acc => acc
  | bits + 1, pos, acc =>
      readFlat w bits (pos + 1)
        (match w[pos]? with
        | none => (true, 2 * acc.2)
        | some b => (acc.1, 2 * acc.2 + b.toNat))

theorem takeBit_eq
    (d : List UInt8) (idx procBits : Nat)
    (acc : Bool × Nat)
    (hLow : procBits < 8) :
    takeBit d idx procBits acc =
      match (bitsOf d)[8 * idx + procBits]? with
      | none => (true, 2 * acc.2)
      | some b => (acc.1, 2 * acc.2 + b.toNat) := by
  have hDiv : (8 * idx + procBits) / 8 = idx := by omega
  have hMod : (8 * idx + procBits) % 8 = procBits := by omega
  rw [bitsOf_getElem?, hDiv, hMod]
  unfold takeBit
  cases d[idx]? <;> rfl

/- The loops read the bits from a position on. -/
theorem getBitsLoop_eq
    (d : List UInt8) (bits : Nat)
    {idx procBits : Nat}
    (acc : Bool × Nat)
    (hLow : procBits ≤ 8) :
    getBitsLoop d bits idx procBits acc =
      readFlat (bitsOf d) bits (8 * idx + procBits) acc := by
  induction bits generalizing idx procBits acc with
  | zero => rfl
  | succ bits ih =>
      unfold getBitsLoop readFlat
      by_cases hIn : procBits < 8
      · rw [if_pos hIn, ih _ (by omega), takeBit_eq _ _ _ _ hIn]
        rfl
      · have hNext :
            8 * idx + procBits = 8 * (idx + 1) + 0 := by
          omega
        rw [if_neg hIn, ih _ (by omega),
          takeBit_eq _ _ _ _ (by omega), hNext]

theorem readFlat_some
    {w : List Bool}
    {bits pos : Nat}
    {rc : Bool}
    (value : Nat)
    (hFits : pos + bits ≤ w.length) :
    readFlat w bits pos (rc, value) =
      (rc,
        value * 2 ^ bits +
          msbValue ((w.drop pos).take bits)) := by
  induction bits generalizing pos value with
  | zero => simp [readFlat, msbValue]
  | succ bits ih =>
      have hHere : pos < w.length := by omega
      unfold readFlat
      rw [List.getElem?_eq_getElem hHere]
      simp only
      rw [ih _ (by omega), List.drop_eq_getElem_cons hHere,
        List.take_succ_cons, msbValue_cons, List.length_take,
        List.length_drop, Nat.min_eq_left (by omega), pow_succ]
      congr 1
      ring

theorem readFlat_none
    {w : List Bool}
    {bits pos : Nat}
    {acc : Bool × Nat}
    (hOver : w.length < pos + bits)
    (hSome : acc.1 = true ∨ 0 < bits) :
    (readFlat w bits pos acc).1 = true := by
  induction bits generalizing pos acc with
  | zero => exact hSome.resolve_right (by omega)
  | succ bits ih =>
      unfold readFlat
      by_cases hHere : pos < w.length
      · rw [List.getElem?_eq_getElem hHere]
        exact ih (by omega) (Or.inr (by omega))
      · rw [List.getElem?_eq_none (Nat.not_lt.mp hHere)]
        exact ih (by omega) (Or.inl rfl)

/- The bits of the buffer. -/
def StreamEnding.bits (e : StreamEnding) : List Bool :=
  bitsOf e.d

section Reader

variable {e : StreamEnding}

theorem getBits_eq
    (bits : Nat)
    (hLow : e.procBits ≤ 8) :
    getBits e bits = readFlat e.bits bits e.pos (false, 0) :=
  getBitsLoop_eq e.d bits (false, 0) hLow

theorem getBits_some
    {bits : Nat}
    (hLow : e.procBits ≤ 8)
    (hFits : e.pos + bits ≤ e.bits.length) :
    getBits e bits =
      (false, msbValue ((e.bits.drop e.pos).take bits)) := by
  rw [getBits_eq bits hLow, readFlat_some 0 hFits,
    Nat.zero_mul, Nat.zero_add]

theorem getBits_none
    {bits : Nat}
    (hLow : e.procBits ≤ 8)
    (hSome : 0 < bits)
    (hOver : e.bits.length < e.pos + bits) :
    (getBits e bits).1 = true := by
  rw [getBits_eq bits hLow]
  exact readFlat_none hOver (Or.inr hSome)

/- A pattern that is ahead is what is read. -/
theorem getBits_ahead
    {pattern : List Bool}
    (hLow : e.procBits ≤ 8)
    (hAhead : pattern <+: e.bits.drop e.pos)
    (hSome : pattern ≠ []) :
    getBits e pattern.length = (false, msbValue pattern) := by
  have hLen := hAhead.length_le
  have hPos := List.length_pos_iff.mpr hSome
  rw [List.length_drop] at hLen
  rw [getBits_some hLow (by omega),
    ← List.prefix_iff_eq_take.mp hAhead]

/- What is read tells whether a pattern is ahead. -/
theorem prefix_of_getBits
    {pattern : List Bool}
    {d : Nat}
    (hLow : e.procBits ≤ 8)
    (hRead : getBits e pattern.length = (false, d))
    (hValue : d = msbValue pattern)
    (hSome : pattern ≠ []) :
    pattern <+: e.bits.drop e.pos := by
  have hPos := List.length_pos_iff.mpr hSome
  have hFits :
      e.pos + pattern.length ≤ e.bits.length := by
    by_contra hOver
    have hNone :=
      getBits_none hLow hPos (Nat.lt_of_not_le hOver)
    rw [hRead] at hNone
    cases hNone
  rw [getBits_some hLow hFits] at hRead
  have hSame :
      (e.bits.drop e.pos).take pattern.length = pattern := by
    refine msbValue_inj ?_ ?_
    · rw [List.length_take, List.length_drop]
      omega
    · exact (Prod.ext_iff.mp hRead).2.trans hValue
  rw [← hSame]
  exact List.take_prefix _ _

/- Dropping bits moves on, but never to the end. -/
theorem dropBits_spec
    (bits : Nat)
    (hLow : e.procBits < 8) :
    (dropBits bits e).bits = e.bits ∧
    (dropBits bits e).inHdrScratchLen = e.inHdrScratchLen ∧
    (dropBits bits e).procBits < 8 ∧
    (dropBits bits e).pos =
      if e.pos + bits < e.bits.length then e.pos + bits
      else e.pos := by
  have hLen : e.bits.length = 8 * e.d.length :=
    length_bitsOf e.d
  unfold dropBits
  by_cases hEnd :
      e.idx + (e.procBits + bits) / 8 ≥ e.d.length
  · rw [if_pos hEnd]
    refine ⟨rfl, rfl, hLow, ?_⟩
    rw [if_neg]
    unfold StreamEnding.pos
    omega
  · rw [if_neg hEnd]
    refine ⟨rfl, rfl, Nat.mod_lt _ (by decide), ?_⟩
    have hMoves : e.pos + bits < e.bits.length := by
      unfold StreamEnding.pos
      omega
    rw [if_pos hMoves]
    unfold StreamEnding.pos
    simp only
    omega

/- Syncing moves to the next byte boundary. -/
theorem syncToByte_spec
    (hLow : e.procBits < 8) :
    (syncToByte e).bits = e.bits ∧
    (syncToByte e).inHdrScratchLen = e.inHdrScratchLen ∧
    (syncToByte e).procBits = 0 ∧
    (syncToByte e).pos = byteAlign e.pos := by
  unfold syncToByte byteAlign StreamEnding.pos
  by_cases hZero : e.procBits = 0
  · rw [if_pos hZero]
    exact ⟨rfl, rfl, hZero, by omega⟩
  · rw [if_neg hZero]
    exact ⟨rfl, rfl, rfl, by simp only; omega⟩

end Reader

------------------------------------------------------------
-- One Step
------------------------------------------------------------

section Step

variable {e : StreamEnding} {ret : Rc}

/- The state in which the body of a block is read. -/
def bodyState : BlockKind → EndState
  | .fixed => .fixedHuffman
  | .stored => .copyBlock

/- What the body of an empty block consists of. -/
def emptyBody : BlockKind → List Bool
  | .fixed => endOfBlock
  | .stored => bitsOf emptyStored

/- Where the body starts, behind the header. -/
def bodyStart (kind : BlockKind) (pos : Nat) : Nat :=
  match kind with
  | .fixed => pos
  | .stored => byteAlign pos

/- An empty block, in these words. -/
theorem emptyBlock_iff
    {bits : List Bool}
    {final : Bool}
    {pos last : Nat}
    {kind : BlockKind} :
    EmptyBlock bits final pos kind last ↔
      [final, decide (kind = .fixed), false] <+:
          bits.drop pos ∧
        emptyBody kind <+:
          bits.drop (bodyStart kind (pos + 3)) ∧
        last =
          bodyStart kind (pos + 3) +
            (emptyBody kind).length := by
  constructor
  · intro hBlock
    cases hBlock with
    | fixed hHead hBody => exact ⟨hHead, hBody, rfl⟩
    | stored hHead hBody => exact ⟨hHead, hBody, rfl⟩
  · rintro ⟨hHead, hBody, rfl⟩
    cases kind with
    | fixed => exact .fixed hHead hBody
    | stored => exact .stored hHead hBody

theorem endReadHdr_short
    (hLow : e.procBits ≤ 8)
    (hOver : e.bits.length < e.pos + 3) :
    endReadHdr e ret = .goHome := by
  have hNone := getBits_none hLow (by decide) hOver
  unfold endReadHdr
  rcases hRead : getBits e 3 with ⟨rc, d⟩
  rw [hRead] at hNone
  cases hNone
  rfl

/- Of the header's bits, the first one is remembered. -/
theorem endReadHdr_bits
    {b₀ b₁ b₂ : Bool}
    (ret : Rc)
    (hLow : e.procBits ≤ 8)
    (hHead : [b₀, b₁, b₂] <+: e.bits.drop e.pos) :
    endReadHdr e ret =
      if b₂ = true then .goHome
      else
        .goOn
          { dropBits 3 e with
            state :=
              bodyState (if b₁ then .fixed else .stored) }
          (if b₀ then .streamEnd else ret) := by
  have hRead : getBits e 3 = (false, msbValue [b₀, b₁, b₂]) :=
    getBits_ahead hLow hHead (List.cons_ne_nil _ _)
  unfold endReadHdr
  rw [hRead]
  cases b₀ <;> cases b₁ <;> cases b₂ <;> rfl

/- A body that is not an empty block's leads home. -/
theorem endBlock_home
    {pattern : List Bool}
    (hLow : e.procBits ≤ 8)
    (hSome : pattern ≠ [])
    (hOther : ¬pattern <+: e.bits.drop e.pos) :
    endBlock pattern.length (msbValue pattern) e ret =
      .goHome := by
  unfold endBlock
  rcases hRead : getBits e pattern.length with ⟨rc, d⟩
  cases rc with
  | true => rfl
  | false =>
      have hValue : d ≠ msbValue pattern := fun hValue =>
        hOther (prefix_of_getBits hLow hRead hValue hSome)
      simp only [if_pos hValue]

theorem endBlock_empty
    {pattern : List Bool}
    (hLow : e.procBits ≤ 8)
    (hSome : pattern ≠ [])
    (hAhead : pattern <+: e.bits.drop e.pos) :
    endBlock pattern.length (msbValue pattern) e ret =
      if ret = .streamEnd then
        .syncAvailIn
          { dropBits pattern.length e with state := .readHdr }
      else
        .goOn
          { dropBits pattern.length e with state := .readHdr }
          ret := by
  unfold endBlock
  rw [getBits_ahead hLow hAhead hSome]
  simp only [ne_eq, not_true_eq_false, if_false]

/- The position at which a state reads a body. -/
def bodyReader (kind : BlockKind) (e : StreamEnding) :
    StreamEnding :=
  match kind with
  | .fixed => e
  | .stored => syncToByte e

theorem emptyBody_ne_nil (kind : BlockKind) :
    emptyBody kind ≠ [] := by
  cases kind <;> decide

theorem endStep_body
    (kind : BlockKind)
    (ret : Rc)
    (hState : e.state = bodyState kind) :
    endStep e ret =
      endBlock (emptyBody kind).length
        (msbValue (emptyBody kind))
        (bodyReader kind e) ret := by
  unfold endStep
  rw [hState]
  cases kind with
  | fixed => rfl
  | stored =>
      have hValue :
          msbValue (bitsOf emptyStored) = 0x0000ffff := by
        decide
      simp only [bodyState, emptyBody, bodyReader,
        length_bitsOf, hValue]
      rfl

theorem bodyReader_spec
    (kind : BlockKind)
    (hLow : e.procBits < 8) :
    (bodyReader kind e).bits = e.bits ∧
    (bodyReader kind e).inHdrScratchLen =
      e.inHdrScratchLen ∧
    (bodyReader kind e).procBits < 8 ∧
    (bodyReader kind e).pos = bodyStart kind e.pos := by
  cases kind with
  | fixed => exact ⟨rfl, rfl, hLow, rfl⟩
  | stored =>
      rcases syncToByte_spec hLow with
        ⟨hBits, hLen, hZero, hPos⟩
      refine ⟨hBits, hLen, ?_, hPos⟩
      simp only [bodyReader]
      omega

end Step

------------------------------------------------------------
-- One Block
------------------------------------------------------------

section Round

variable {e : StreamEnding}

/-
  The reader behind an empty block; where this is the end of
  the data, it has not moved over the body.
-/
structure Behind
    (e e' : StreamEnding)
    (kind : BlockKind) (last : Nat) : Prop where
  bits : e'.bits = e.bits
  scratch : e'.inHdrScratchLen = e.inHdrScratchLen
  low : e'.procBits < 8
  state : e'.state = .readHdr
  pos :
    e'.pos =
      if last < e.bits.length then last
      else last - (emptyBody kind).length

theorem Behind.trans
    {e' e'' : StreamEnding}
    {kind kind' : BlockKind}
    {last last' : Nat}
    (hHere : Behind e e' kind last)
    (hThere : Behind e' e'' kind' last') :
    Behind e e'' kind' last' :=
  ⟨hThere.bits.trans hHere.bits,
    hThere.scratch.trans hHere.scratch,
    hThere.low, hThere.state,
    hThere.pos.trans (by rw [hHere.bits])⟩

/- The reader of the body behind a header. -/
theorem bodyReader_header
    (kind : BlockKind)
    (hLow : e.procBits < 8) :
    ∃ mid,
      bodyReader kind
          { dropBits 3 e with state := bodyState kind } =
        mid ∧
      mid.bits = e.bits ∧
      mid.inHdrScratchLen = e.inHdrScratchLen ∧
      mid.procBits < 8 ∧
      mid.pos =
        bodyStart kind
          (if e.pos + 3 < e.bits.length then e.pos + 3
          else e.pos) := by
  rcases dropBits_spec 3 hLow with
    ⟨hBits, hLen, hLow', hPos⟩
  rcases bodyReader_spec
      (e := { dropBits 3 e with state := bodyState kind })
      kind hLow' with
    ⟨hBits', hLen', hLow'', hPos'⟩
  refine
    ⟨_, rfl, hBits'.trans hBits, hLen'.trans hLen, hLow'',
      hPos'.trans ?_⟩
  exact congrArg (bodyStart kind) hPos

theorem endLoop_goHome
    {ret : Rc}
    (fuel : Nat)
    (hStep : endStep e ret = .goHome) :
    endLoop (fuel + 1) e ret = some none := by
  unfold endLoop
  rw [hStep]

theorem endLoop_sync
    {ret : Rc}
    {e' : StreamEnding}
    (fuel : Nat)
    (hStep : endStep e ret = .syncAvailIn e') :
    endLoop (fuel + 1) e ret = some (some e') := by
  unfold endLoop
  rw [hStep]

theorem endLoop_goOn
    {ret ret' : Rc}
    {e' : StreamEnding}
    (fuel : Nat)
    (hStep : endStep e ret = .goOn e' ret') :
    endLoop (fuel + 1) e ret = endLoop fuel e' ret' := by
  conv => lhs; unfold endLoop
  rw [hStep]

/- Two turns of the loop for an empty block. -/
theorem endLoop_block
    {final : Bool}
    {kind : BlockKind}
    {last : Nat}
    (fuel : Nat)
    (hLow : e.procBits < 8)
    (hState : e.state = .readHdr)
    (hBlock : EmptyBlock e.bits final e.pos kind last) :
    ∃ e',
      Behind e e' kind last ∧
      endLoop (fuel + 2) e .ok =
        if final then some (some e')
        else endLoop fuel e' .ok := by
  have hBounds := hBlock.bounds
  rcases emptyBlock_iff.mp hBlock with
    ⟨hHead, hBody, hLast⟩
  have hStep :
      endStep e .ok =
        .goOn
          { dropBits 3 e with state := bodyState kind }
          (if final then .streamEnd else .ok) := by
    unfold endStep
    rw [hState]
    simp only
    rw [endReadHdr_bits _ (by omega) hHead]
    cases kind <;> rfl
  rcases bodyReader_header kind hLow with
    ⟨mid, hMid, hBits, hLen, hLow', hPos⟩
  rw [if_pos (by omega)] at hPos
  rcases dropBits_spec (emptyBody kind).length hLow' with
    ⟨hDropBits, hDropLen, hDropLow, hDropPos⟩
  rw [hBits, hPos, ← hLast] at hDropPos
  have hBodyStep := endStep_body
    (e := { dropBits 3 e with state := bodyState kind })
    kind (if final then .streamEnd else .ok) rfl
  rw [hMid,
    endBlock_empty (by omega) (emptyBody_ne_nil kind)
      (by rw [hBits, hPos]; exact hBody)]
    at hBodyStep
  refine
    ⟨{ dropBits (emptyBody kind).length mid with
        state := .readHdr },
      ⟨hDropBits.trans hBits, hDropLen.trans hLen, hDropLow,
        rfl, ?_⟩, ?_⟩
  · refine hDropPos.trans ?_
    rw [hLast, Nat.add_sub_cancel]
  · rw [endLoop_goOn _ hStep]
    cases final with
    | true => exact endLoop_sync _ hBodyStep
    | false => exact endLoop_goOn _ hBodyStep

/- Without an empty block ahead, the loop leads home. -/
theorem endLoop_other
    (fuel : Nat)
    (hLow : e.procBits < 8)
    (hState : e.state = .readHdr)
    (hOther : ∀ final kind last,
      ¬EmptyBlock e.bits final e.pos kind last) :
    endLoop (fuel + 2) e .ok = some none := by
  have hStart : endStep e .ok = endReadHdr e .ok := by
    unfold endStep
    rw [hState]
  by_cases hFits : e.pos + 3 ≤ e.bits.length
  swap
  · exact endLoop_goHome _
      (hStart.trans
        (endReadHdr_short (by omega) (by omega)))
  obtain ⟨b₀, b₁, b₂, hHead⟩ :
      ∃ b₀ b₁ b₂, [b₀, b₁, b₂] <+: e.bits.drop e.pos := by
    have hLen :
        ((e.bits.drop e.pos).take 3).length = 3 := by
      rw [List.length_take, List.length_drop]
      omega
    rcases List.length_eq_three.mp hLen with
      ⟨b₀, b₁, b₂, hBits⟩
    exact ⟨b₀, b₁, b₂, hBits ▸ List.take_prefix _ _⟩
  have hRead :=
    hStart.trans
      (endReadHdr_bits .ok (by omega) hHead)
  cases b₂ with
  | true => exact endLoop_goHome _ hRead
  | false =>
      obtain ⟨kind, hKind⟩ :
          ∃ kind,
            (if b₁ = true then BlockKind.fixed
              else .stored) = kind :=
        ⟨_, rfl⟩
      have hBit : b₁ = decide (kind = .fixed) := by
        rw [← hKind]
        cases b₁ <;> rfl
      rw [hKind, if_neg (by decide)] at hRead
      rw [hBit] at hHead
      rcases bodyReader_header kind hLow with
        ⟨mid, hMid, hBits, hLen, hLow', hPos⟩
      have hBody :
          ¬emptyBody kind <+: mid.bits.drop mid.pos := by
        intro hAhead
        rw [hBits, hPos] at hAhead
        by_cases hMoved : e.pos + 3 < e.bits.length
        · rw [if_pos hMoved] at hAhead
          exact hOther b₀ kind _
            (emptyBlock_iff.mpr ⟨hHead, hAhead, rfl⟩)
        · -- a header at the very end is not dropped, and no
          -- body has room there
          rw [if_neg hMoved] at hAhead
          have hRoom := hAhead.length_le
          rw [List.length_drop] at hRoom
          cases kind with
          | fixed =>
              simp only [emptyBody, endOfBlock, bodyStart,
                List.length_replicate] at hRoom
              omega
          | stored =>
              simp only [emptyBody, emptyStored, bodyStart,
                byteAlign, length_bitsOf, List.length_cons,
                List.length_nil] at hRoom
              omega
      rw [endLoop_goOn _ hRead]
      refine endLoop_goHome _ ?_
      rw [endStep_body kind _ rfl, hMid,
        endBlock_home (by omega) (emptyBody_ne_nil kind)
          hBody]

end Round

------------------------------------------------------------
-- The Loop
------------------------------------------------------------

/- Behind the last bit there is no further block. -/
theorem endLoop_behind
    {e e' : StreamEnding}
    {final : Bool}
    {kind : BlockKind}
    {last : Nat}
    (fuel : Nat)
    (hBlock : EmptyBlock e.bits final e.pos kind last)
    (hBehind : Behind e e' kind last)
    (hEnd : last = e.bits.length) :
    endLoop (fuel + 2) e' .ok = some none := by
  have hBounds := hBlock.bounds
  rcases emptyBlock_iff.mp hBlock with ⟨_, hBody, hLast⟩
  have hPos := hBehind.pos
  rw [if_neg (by omega)] at hPos
  refine endLoop_other fuel hBehind.low hBehind.state ?_
  intro final' kind' last' hBlock'
  rw [hBehind.bits] at hBlock'
  have hBounds' := hBlock'.bounds
  cases kind with
  | fixed =>
      simp only [emptyBody, endOfBlock,
        List.length_replicate] at hPos
      omega
  | stored =>
      -- the zeros of a stored length read as the header of
      -- another stored block
      simp only [emptyBody, length_bitsOf, emptyStored,
        List.length_cons, List.length_nil, bodyStart]
        at hPos hLast
      have hStart :
          e'.pos = byteAlign (e.pos + 3) := by
        omega
      have hZeros :
          [false, false, false] <+: e.bits.drop e'.pos := by
        rw [hStart]
        exact List.IsPrefix.trans (by decide) hBody
      cases hBlock' with
      | fixed hHead _ =>
          exact absurd (header_unique hHead hZeros).2.1
            (by decide)
      | stored _ _ =>
          unfold byteAlign at *
          omega

/- The loop finds the end of empty blocks, or leads home. -/
theorem endLoop_spec
    {e : StreamEnding}
    (fuel : Nat)
    (hFuel : e.bits.length + 20 ≤ e.pos + 5 * fuel)
    (hTwo : 2 ≤ fuel)
    (hLow : e.procBits < 8)
    (hState : e.state = .readHdr) :
    (∃ kind last e',
      EmptyEnding e.bits e.pos kind last ∧
      Behind e e' kind last ∧
      endLoop fuel e .ok = some (some e')) ∨
    ((∀ kind last,
        ¬EmptyEnding e.bits e.pos kind last) ∧
      endLoop fuel e .ok = some none) := by
  induction fuel using Nat.strong_induction_on
    generalizing e with
  | _ fuel ih =>
  obtain ⟨fuel, rfl⟩ : ∃ k, fuel = k + 2 :=
    ⟨fuel - 2, by omega⟩
  by_cases hBlock :
      ∃ final kind last,
        EmptyBlock e.bits final e.pos kind last
  swap
  · -- no block at all
    push Not at hBlock
    right
    refine ⟨fun kind last hEnding => ?_,
      endLoop_other fuel hLow hState hBlock⟩
    cases hEnding with
    | final hHere => exact hBlock _ _ _ hHere
    | skip hHere _ => exact hBlock _ _ _ hHere
  rcases hBlock with ⟨final, kind, last, hBlock⟩
  have hBounds := hBlock.bounds
  rcases endLoop_block fuel hLow hState hBlock with
    ⟨e', hBehind, hLoop⟩
  cases final with
  | true =>
      left
      exact ⟨kind, last, e', .final hBlock, hBehind, hLoop⟩
  | false =>
      rw [if_neg (by decide)] at hLoop
      have hSkip :
          ∀ kind' last',
            EmptyEnding e.bits e.pos kind' last' →
              EmptyEnding e.bits last kind' last' := by
        intro kind' last' hEnding
        cases hEnding with
        | final hHere =>
            exact absurd (hHere.unique hBlock).1 (by decide)
        | skip hHere hRest =>
            exact (hHere.unique hBlock).2.2 ▸ hRest
      by_cases hMoved : last < e.bits.length
      · have hPos := hBehind.pos
        rw [if_pos hMoved] at hPos
        rw [hLoop]
        have hNext :=
          ih fuel (by omega) (e := e')
            (by rw [hBehind.bits]; omega) (by omega)
            hBehind.low hBehind.state
        rw [hBehind.bits, hPos] at hNext
        rcases hNext with
          ⟨kind', last', e'', hEnding, hBehind', hFound⟩ |
            ⟨hNone, hHome⟩
        · left
          exact ⟨kind', last', e'', .skip hBlock hEnding,
            hBehind.trans hBehind', hFound⟩
        · right
          exact ⟨fun kind' last' hEnding =>
            hNone kind' last' (hSkip kind' last' hEnding),
            hHome⟩
      · right
        constructor
        · intro kind' last' hEnding
          have hBounds' := (hSkip kind' last' hEnding).bounds
          omega
        · obtain ⟨fuel, rfl⟩ : ∃ k, fuel = k + 2 :=
            ⟨fuel - 2, by omega⟩
          rw [hLoop]
          exact endLoop_behind fuel hBlock hBehind (by omega)

------------------------------------------------------------
-- Termination
------------------------------------------------------------

/- Where a header leads, wherever the reader stands. -/
theorem endReadHdr_cases
    (e : StreamEnding) (ret : Rc) :
    endReadHdr e ret = .goHome ∨
    ∃ kind ret',
      endReadHdr e ret =
        .goOn
          { dropBits 3 e with state := bodyState kind }
          ret' ∧
      (ret' = .streamEnd ∨ ret' = ret) ∧
      (kind = .fixed → (getBits e 3).2 &&& 0x3 = 2) := by
  unfold endReadHdr
  rcases getBits e 3 with ⟨rc, d⟩
  cases rc with
  | true => exact Or.inl rfl
  | false =>
      have hRet :
          (if d &&& 0x4 ≠ 0 then Rc.streamEnd else ret) =
              .streamEnd ∨
            (if d &&& 0x4 ≠ 0 then Rc.streamEnd else ret) =
              ret := by
        split <;> simp
      simp only
      split
      · exact Or.inr ⟨.stored, _, rfl, hRet, nofun⟩
      · rename_i hTwo
        exact Or.inr ⟨.fixed, _, rfl, hRet, fun _ => hTwo⟩
      · exact Or.inl rfl

/- Where a body leads. -/
theorem endBlock_cases
    (bits required : Nat)
    (e : StreamEnding) (ret : Rc) :
    endBlock bits required e ret = .goHome ∨
    getBits e bits = (false, required) ∧
      endBlock bits required e ret =
        if ret = .streamEnd then
          .syncAvailIn { dropBits bits e with state := .readHdr }
        else
          .goOn { dropBits bits e with state := .readHdr }
            ret := by
  unfold endBlock
  rcases getBits e bits with ⟨rc, d⟩
  cases rc with
  | true => exact Or.inl rfl
  | false =>
      by_cases hOther : d = required
      · subst hOther
        simp
      · simp [hOther]

/- A reader past a byte reads the next one from bit 0. -/
theorem getBits_carry
    (bits : Nat)
    {e : StreamEnding}
    (hHigh : 8 ≤ e.procBits) :
    getBits e bits = getBits { e with procBits := 8 } bits := by
  unfold getBits
  cases bits with
  | zero => rfl
  | succ bits =>
      unfold getBitsLoop
      rw [if_neg (by omega), if_neg (by simp)]

/- Zeros that are read as a body are read as a header. -/
theorem getBits_zero
    {e : StreamEnding}
    (hRead : getBits e 7 = (false, 0)) :
    (getBits e 3).2 = 0 := by
  have hLow :
      ∀ e : StreamEnding,
        e.procBits ≤ 8 →
          getBits e 7 = (false, 0) →
            (getBits e 3).2 = 0 := by
    intro e hLow hRead
    have hZeros :
        endOfBlock <+: e.bits.drop e.pos :=
      prefix_of_getBits hLow hRead rfl (by decide)
    have hThree :
        [false, false, false] <+: e.bits.drop e.pos :=
      List.IsPrefix.trans (by decide) hZeros
    have hHead :
        getBits e 3 =
          (false, msbValue [false, false, false]) :=
      getBits_ahead hLow hThree (List.cons_ne_nil _ _)
    rw [hHead]
    rfl
  by_cases hHigh : e.procBits ≤ 8
  · exact hLow e hHigh hRead
  · rw [getBits_carry _ (by omega)] at hRead ⊢
    exact hLow _ (Nat.le_refl 8) hRead

/- Behind one block the reader is inside a byte. -/
theorem dropBits_body_lt
    {e : StreamEnding}
    {kind : BlockKind}
    (hKind : kind = .fixed → (getBits e 3).2 &&& 0x3 = 2)
    (hRead :
      getBits
          (bodyReader kind
            { dropBits 3 e with state := bodyState kind })
          (emptyBody kind).length =
        (false, msbValue (emptyBody kind))) :
    (dropBits (emptyBody kind).length
      (bodyReader kind
        { dropBits 3 e with
          state := bodyState kind })).procBits < 8 := by
  by_cases hLow :
      (bodyReader kind
        { dropBits 3 e with
          state := bodyState kind }).procBits < 8
  · exact (dropBits_spec _ hLow).2.2.1
  cases kind with
  | stored =>
      exfalso
      apply hLow
      simp only [bodyReader, syncToByte]
      split
      · rename_i hZero
        rw [hZero]
        decide
      · exact Nat.zero_lt_succ 7
  | fixed =>
      -- the header was not dropped, and is read again
      exfalso
      have hSame : dropBits 3 e = e := by
        unfold dropBits
        split
        · rfl
        · rename_i hMoved
          exfalso
          apply hLow
          simp only [bodyReader, dropBits, if_neg hMoved]
          exact Nat.mod_lt _ (by decide)
      rw [hSame] at hRead
      have hZero : getBits e 7 = (false, 0) := hRead
      have hTwo := hKind rfl
      rw [getBits_zero hZero] at hTwo
      exact absurd hTwo (by decide)

/- The loop ends, wherever the reader starts. -/
theorem endLoop_terminates
    {e : StreamEnding}
    (fuel : Nat)
    (hFuel : e.bits.length + 20 ≤ 5 * fuel)
    (hState : e.state = .readHdr) :
    ∃ found, endLoop (fuel + 2) e .ok = some found := by
  have hFirst : endStep e .ok = endReadHdr e .ok := by
    unfold endStep
    rw [hState]
  rcases endReadHdr_cases e .ok with
    hHome | ⟨kind, ret, hOn, hRet, hKind⟩
  · exact ⟨none, endLoop_goHome _ (hFirst.trans hHome)⟩
  rw [endLoop_goOn _ (hFirst.trans hOn)]
  have hSecond := endStep_body
    (e := { dropBits 3 e with state := bodyState kind })
    kind ret rfl
  rcases endBlock_cases (emptyBody kind).length
      (msbValue (emptyBody kind))
      (bodyReader kind
        { dropBits 3 e with state := bodyState kind }) ret with
    hHome | ⟨hRead, hOn'⟩
  · exact ⟨none, endLoop_goHome _ (hSecond.trans hHome)⟩
  by_cases hEnd : ret = .streamEnd
  · rw [if_pos hEnd] at hOn'
    exact ⟨_, endLoop_sync _ (hSecond.trans hOn')⟩
  · rw [if_neg hEnd] at hOn'
    rw [endLoop_goOn _ (hSecond.trans hOn'),
      hRet.resolve_left hEnd]
    have hBits :
        { dropBits (emptyBody kind).length
            (bodyReader kind
              { dropBits 3 e with
                state := bodyState kind }) with
          state := .readHdr : StreamEnding }.bits =
            e.bits := by
      have hDrop :
          ∀ bits (e : StreamEnding),
            (dropBits bits e).bits = e.bits := by
        intro bits e
        unfold dropBits
        split <;> rfl
      have hReader :
          (bodyReader kind
            { dropBits 3 e with
              state := bodyState kind }).bits =
            (dropBits 3 e).bits := by
        cases kind with
        | fixed => rfl
        | stored =>
            simp only [bodyReader, syncToByte]
            split <;> rfl
      exact (hDrop _ _).trans (hReader.trans (hDrop 3 e))
    have hNext :=
      endLoop_spec
        (e := { dropBits (emptyBody kind).length
            (bodyReader kind
              { dropBits 3 e with
                state := bodyState kind }) with
          state := .readHdr })
        fuel (by rw [hBits]; omega) (by omega)
        (dropBits_body_lt hKind hRead) rfl
    rcases hNext with ⟨_, _, e', _, _, hFound⟩ | ⟨_, hHome⟩
    · exact ⟨_, hFound⟩
    · exact ⟨_, hHome⟩

------------------------------------------------------------
-- What the Search Comes to
------------------------------------------------------------

/- Bits are read of a byte that is there. -/
theorem idx_lt_of_getBits
    {bits d : Nat}
    {e : StreamEnding}
    (hSome : 0 < bits)
    (hRead : getBits e bits = (false, d)) :
    e.idx < e.d.length := by
  have hLow :
      ∀ e : StreamEnding,
        e.procBits ≤ 8 →
          getBits e bits = (false, d) →
            e.idx < e.d.length := by
    intro e hLow hRead
    by_contra hPast
    have hOver : e.bits.length < e.pos + bits := by
      unfold StreamEnding.bits StreamEnding.pos
      rw [length_bitsOf]
      omega
    have hNone := getBits_none hLow hSome hOver
    rw [hRead] at hNone
    cases hNone
  by_cases hHigh : e.procBits ≤ 8
  · exact hLow e hHigh hRead
  · rw [getBits_carry _ (by omega)] at hRead
    exact hLow { e with procBits := 8 } (Nat.le_refl 8) hRead

/- The data a step reads stay the same. -/
structure SameData (e e' : StreamEnding) : Prop where
  d : e'.d = e.d
  scratch : e'.inHdrScratchLen = e.inHdrScratchLen

theorem SameData.trans
    {e e' e'' : StreamEnding}
    (hFirst : SameData e e')
    (hSecond : SameData e' e'') :
    SameData e e'' :=
  ⟨hSecond.d.trans hFirst.d,
    hSecond.scratch.trans hFirst.scratch⟩

theorem dropBits_same (bits : Nat) (e : StreamEnding) :
    SameData e (dropBits bits e) := by
  unfold dropBits
  split <;> exact ⟨rfl, rfl⟩

theorem bodyReader_same
    (kind : BlockKind) (e : StreamEnding) :
    SameData e (bodyReader kind e) := by
  cases kind with
  | fixed => exact ⟨rfl, rfl⟩
  | stored =>
      unfold bodyReader syncToByte
      simp only
      split <;> exact ⟨rfl, rfl⟩

/- What a step leads to is at a byte of the same data. -/
theorem endStep_found
    (e : StreamEnding)
    (ret : Rc) :
    (∀ e', endStep e ret = .syncAvailIn e' →
      SameData e e' ∧ e'.idx < e'.d.length) ∧
    (∀ e' ret', endStep e ret = .goOn e' ret' →
      SameData e e') := by
  have hBody :
      ∀ kind, e.state = bodyState kind →
        (∀ e', endStep e ret = .syncAvailIn e' →
          SameData e e' ∧ e'.idx < e'.d.length) ∧
        (∀ e' ret', endStep e ret = .goOn e' ret' →
          SameData e e') := by
    intro kind hState
    have hReader := bodyReader_same kind e
    have hDrop := dropBits_same (emptyBody kind).length
      (bodyReader kind e)
    rw [endStep_body kind ret hState]
    rcases endBlock_cases (emptyBody kind).length
        (msbValue (emptyBody kind)) (bodyReader kind e)
        ret with
      hHome | ⟨hRead, hOn⟩
    · rw [hHome]
      exact ⟨nofun, nofun⟩
    · rw [hOn]
      have hIdx := idx_lt_of_getBits
        (List.length_pos_iff.mpr (emptyBody_ne_nil kind))
        hRead
      have hIdx' :
          (dropBits (emptyBody kind).length
            (bodyReader kind e)).idx <
              (dropBits (emptyBody kind).length
                (bodyReader kind e)).d.length := by
        unfold dropBits
        split
        · exact hIdx
        · rename_i hMoved
          exact Nat.lt_of_not_le hMoved
      constructor
      · intro e' hSync
        split at hSync
        · cases hSync
          exact ⟨(hReader.trans hDrop).trans ⟨rfl, rfl⟩,
            hIdx'⟩
        · cases hSync
      · intro e' ret' hGoOn
        split at hGoOn
        · cases hGoOn
        · cases hGoOn
          exact (hReader.trans hDrop).trans ⟨rfl, rfl⟩
  cases hState : e.state with
  | fixedHuffman => exact hBody .fixed hState
  | copyBlock => exact hBody .stored hState
  | readHdr =>
      have hHdr : endStep e ret = endReadHdr e ret := by
        unfold endStep
        rw [hState]
      rw [hHdr]
      rcases endReadHdr_cases e ret with
        hHome | ⟨kind, ret', hOn, _⟩
      · rw [hHome]
        exact ⟨nofun, nofun⟩
      · rw [hOn]
        refine ⟨nofun, fun e' ret'' hGoOn => ?_⟩
        cases hGoOn
        exact (dropBits_same 3 e).trans ⟨rfl, rfl⟩

theorem endLoop_found
    {fuel : Nat}
    {e e' : StreamEnding}
    {ret : Rc}
    (hFound : endLoop fuel e ret = some (some e')) :
    SameData e e' ∧ e'.idx < e'.d.length := by
  induction fuel generalizing e ret with
  | zero => cases hFound
  | succ fuel ih =>
      have hSteps := endStep_found e ret
      unfold endLoop at hFound
      cases hStep : endStep e ret with
      | goHome =>
          rw [hStep] at hFound
          cases hFound
      | syncAvailIn e₁ =>
          rw [hStep] at hFound
          cases hFound
          exact hSteps.1 _ hStep
      | goOn e₁ ret₁ =>
          rw [hStep] at hFound
          have hSame := hSteps.2 _ _ hStep
          have hNext := ih hFound
          exact ⟨hSame.trans hNext.1, hNext.2⟩

section Check

variable {h : InflStream} {z : ZStream}

theorem length_streamEnding
    (h : InflStream) (nextIn : List UInt8) :
    (streamEnding h nextIn).d.length =
      min (h.save.bits / 8) endWindow +
        min nextIn.length
          (endWindow - min (h.save.bits / 8) endWindow) := by
  simp only [streamEnding, List.length_append,
    ByteMem.length_window, List.length_take]
  omega

/- Bytes are taken of the input only. -/
theorem syncOffs_le
    {e : StreamEnding}
    (hSame : SameData (streamEnding h z.nextIn) e)
    (hIdx : e.idx < e.d.length) :
    syncOffs e ≤ z.nextIn.length ∧
      syncOffs e = e.idx + 1 - e.inHdrScratchLen ∨
    syncOffs e = 0 ∧ e.idx ≤ e.inHdrScratchLen := by
  have hLen := length_streamEnding h z.nextIn
  have hScratch :
      e.inHdrScratchLen = h.save.bits / 8 := hSame.scratch
  rw [← hSame.d] at hLen
  unfold endWindow at hLen
  unfold syncOffs
  by_cases hInside : e.idx ≤ e.inHdrScratchLen
  · rw [if_pos hInside]
    exact Or.inr ⟨rfl, hInside⟩
  · rw [if_neg hInside]
    left
    omega

/- The ways the function returns; it always does. -/
inductive EndChecked
    (h : InflStream) (z : ZStream) :
    Rc × InflStream × ZStream → Prop
  | home : EndChecked h z (.ok, h, z)
  | found
      {e : StreamEnding} :
      h.format = .defl →
      h.save.treeBits = 0 →
      endLoop (8 * endWindow) (streamEnding h z.nextIn) .ok =
        some (some e) →
      syncOffs e ≤ z.nextIn.length →
      EndChecked h z (syncAvailIn e h z)

theorem checkStreamEnd_checked
    (disabled : Bool) (h : InflStream) (z : ZStream) :
    ∃ result,
      checkStreamEnd disabled h z = some result ∧
        EndChecked h z result := by
  have hBits :
      (streamEnding h z.nextIn).bits.length ≤ 128 := by
    have hLen := length_streamEnding h z.nextIn
    unfold StreamEnding.bits
    rw [length_bitsOf, hLen]
    unfold endWindow
    omega
  unfold checkStreamEnd
  by_cases hDisabled : disabled = true
  · rw [if_pos hDisabled]
    exact ⟨_, rfl, .home⟩
  rw [if_neg hDisabled]
  by_cases hFormat : h.format ≠ .defl
  · rw [if_pos hFormat]
    exact ⟨_, rfl, .home⟩
  rw [if_neg hFormat]
  by_cases hTree : h.save.treeBits ≠ 0
  · rw [if_pos hTree]
    exact ⟨_, rfl, .home⟩
  rw [if_neg hTree]
  have hRuns :
      ∃ found,
        endLoop (8 * endWindow) (streamEnding h z.nextIn)
          .ok = some found :=
    endLoop_terminates 126 (by omega) rfl
  rcases hRuns with ⟨found, hFound⟩
  rw [hFound]
  refine ⟨_, rfl, ?_⟩
  cases found with
  | none => exact .home
  | some e =>
      rcases endLoop_found hFound with ⟨hSame, hIdx⟩
      refine .found (Decidable.not_not.mp hFormat)
        (Decidable.not_not.mp hTree) hFound ?_
      rcases syncOffs_le hSame hIdx with hLe | hZero
      · exact hLe.1
      · rw [hZero.1]
        exact Nat.zero_le _

end Check

end Hardware
