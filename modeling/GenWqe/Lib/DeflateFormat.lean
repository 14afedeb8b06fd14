import GenWqe.Lib.BitReader
import GenWqe.Lib.BlockBits

/-
  The meaning of a deflate stream: a decoder for the blocks of
  RFC 1951 that reads symbol by symbol, and the reading of any
  number of them.

  Key definitions include:
    * `Symbol`, `Mode` and `Decoder`
    * `blockHeader`, `HeaderNames`, `Decoder.next`
    * `Reads`

  Main results:
    * `Reads.trans`
    * `Reads.passes`
    * `reads_syncMarker`, `reads_closing`
-/

------------------------------------------------------------
-- Huffman Codes
------------------------------------------------------------

namespace Rfc1951

open BitReader Bits BlockBits

/- The symbols of a code: by length, then in their order. -/
def sortedSymbols (lens : List Nat) : List Nat :=
  (List.range' 1 15).flatMap fun len =>
    (List.range lens.length).filter fun i =>
      lens.getD i 0 == len

/-
  The code is read bit by bit. The codes of `len` bits start
  with `first`, and their symbols at `index`.
-/
def readCode (lens : List Nat) :
    Nat → Nat → Nat → Nat → Nat → BitReader Nat
  | 0, _, _, _, _ => fail
  | fuel + 1, len, code, first, index => do
      let b ← bit
      let code := 2 * code + b.toNat
      let count := lens.count len
      if code < first + count then
        ofOption
          (sortedSymbols lens)[index + (code - first)]?
      else
        readCode lens fuel (len + 1) code
          (2 * (first + count)) (index + count)

/- A symbol of the code that the lengths define. -/
def huffman (lens : List Nat) : BitReader Nat :=
  readCode lens 15 1 0 0 0

------------------------------------------------------------
-- Symbols
------------------------------------------------------------

/- What the codes of a block stand for. -/
inductive Symbol where
  | literal (b : UInt8)
  | copy (length distance : Nat)
  | endOfBlock
  deriving DecidableEq, Repr

def lengthBase : List Nat :=
  [3, 4, 5, 6, 7, 8, 9, 10, 11, 13, 15, 17, 19, 23, 27, 31,
    35, 43, 51, 59, 67, 83, 99, 115, 131, 163, 195, 227, 258]

def lengthExtra : List Nat :=
  [0, 0, 0, 0, 0, 0, 0, 0, 1, 1, 1, 1, 2, 2, 2, 2, 3, 3, 3, 3,
    4, 4, 4, 4, 5, 5, 5, 5, 0]

def distBase : List Nat :=
  [1, 2, 3, 4, 5, 7, 9, 13, 17, 25, 33, 49, 65, 97, 129, 193,
    257, 385, 513, 769, 1025, 1537, 2049, 3073, 4097, 6145,
    8193, 12289, 16385, 24577]

def distExtra : List Nat :=
  [0, 0, 0, 0, 1, 1, 2, 2, 3, 3, 4, 4, 5, 5, 6, 6, 7, 7, 8, 8,
    9, 9, 10, 10, 11, 11, 12, 12, 13, 13]

/- A base value, and what the extra bits add to it. -/
def extended
    (base extra : List Nat) (i : Nat) : BitReader Nat := do
  let start ← ofOption base[i]?
  let width ← ofOption extra[i]?
  let more ← nat width
  pure (start + more)

/- The literal/length code, and a distance behind a length. -/
def symbol (lits dists : List Nat) : BitReader Symbol := do
  let s ← huffman lits
  if s < 256 then pure (.literal (UInt8.ofNat s))
  else if s = 256 then pure .endOfBlock
  else do
    let length ← extended lengthBase lengthExtra (s - 257)
    let d ← huffman dists
    let distance ← extended distBase distExtra d
    pure (.copy length distance)

------------------------------------------------------------
-- Block Headers
------------------------------------------------------------

/- The lengths of the fixed codes. -/
def fixedLits : List Nat :=
  List.replicate 144 8 ++ List.replicate 112 9 ++
    List.replicate 24 7 ++ List.replicate 8 8

def fixedDists : List Nat := List.replicate 30 5

/- The order of the lengths of the code for code lengths. -/
def lengthOrder : List Nat :=
  [16, 17, 18, 0, 8, 7, 9, 6, 10, 5, 11, 4, 12, 3, 13, 2, 14,
    1, 15]

/-
  The code lengths up to a number of them, with repetitions.
  Every code adds one length at least.
-/
def readLengths (code : List Nat) (count : Nat) :
    Nat → List Nat → BitReader (List Nat)
  | 0, lens =>
      if lens.length = count then pure lens else fail
  | fuel + 1, lens =>
      if lens.length = count then pure lens
      else do
        let s ← huffman code
        if s < 16 then
          readLengths code count fuel (lens ++ [s])
        else if s = 16 then do
          let last ← ofOption lens.getLast?
          let n ← nat 2
          readLengths code count fuel
            (lens ++ List.replicate (n + 3) last)
        else do
          let n ← nat (if s = 17 then 3 else 7)
          readLengths code count fuel
            (lens ++
              List.replicate
                (n + if s = 17 then 3 else 11) 0)

/- The two codes of a dynamic block. -/
def dynamicCodes : BitReader (List Nat × List Nat) := do
  let lits ← nat 5
  let dists ← nat 5
  let codes ← nat 4
  let given ← (nat 3).list (codes + 4)
  let code :=
    (List.range 19).map fun s =>
      given.getD (lengthOrder.idxOf s) 0
  let count := lits + 257 + (dists + 1)
  let lens ← readLengths code count count []
  pure (lens.take (lits + 257), lens.drop (lits + 257))

/-
  Where a decoder is: in front of a block header, in a stored
  block of which at least one byte is left, among the codes of
  a block, or behind the final block.
-/
inductive Mode where
  | header
  | stored (final : Bool) (left : Nat)
  | codes (final : Bool) (lits dists : List Nat)
  | done
  deriving DecidableEq, Repr

/- Behind a block. -/
def Mode.behind (final : Bool) : Mode :=
  if final then .done else .header

/- A stored block with some bytes left, or none. -/
def Mode.ofStored (final : Bool) (left : Nat) : Mode :=
  if left = 0 then .behind final else .stored final left

/-
  The header of a block that starts `offset` bits behind a
  byte boundary.
-/
def blockHeader (offset : Nat) : BitReader Mode := do
  let final ← bit
  let kind ← nat 2
  if kind = 0 then do
    let _ ← nat ((8 - (offset + 3) % 8) % 8)
    let len ← nat 16
    let nlen ← nat 16
    if len + nlen = 65535 then pure (.ofStored final len)
    else fail
  else if kind = 1 then
    pure (.codes final fixedLits fixedDists)
  else if kind = 2 then do
    let codes ← dynamicCodes
    pure (.codes final codes.1 codes.2)
  else fail

------------------------------------------------------------
-- The Decoder
------------------------------------------------------------

/-
  The mode behind a block header of which all bits are kept,
  or in front of one where none are.
-/
def HeaderNames (header : List Bool) (mode : Mode) : Prop :=
  if header = [] then mode = .header
  else ∃ offset,
    (blockHeader offset).run header = some (mode, [])

@[simp] theorem headerNames_nil (mode : Mode) :
    HeaderNames [] mode ↔ mode = .header := by
  simp [HeaderNames]

/- How far back a distance may reach. -/
@[irreducible] def windowSize : Nat := 32768

/- The last bytes of the output, as far as they are needed. -/
def lastBytes (bytes : List UInt8) : List UInt8 :=
  bytes.drop (bytes.length - windowSize)

theorem length_lastBytes_le (bytes : List UInt8) :
    (lastBytes bytes).length ≤ windowSize := by
  unfold lastBytes
  rw [List.length_drop]
  omega

theorem lastBytes_of_le
    {bytes : List UInt8}
    (hLe : bytes.length ≤ windowSize) :
    lastBytes bytes = bytes := by
  unfold lastBytes
  rw [Nat.sub_eq_zero_of_le hLe, List.drop_zero]

/- Bytes in front that are out of reach do not count. -/
theorem lastBytes_append (as bs : List UInt8) :
    lastBytes (lastBytes as ++ bs) =
      lastBytes (as ++ bs) := by
  unfold lastBytes
  by_cases hLe : as.length ≤ windowSize
  · rw [Nat.sub_eq_zero_of_le hLe, List.drop_zero]
  · have hDrop :
        as.drop (as.length - windowSize) ++ bs =
          (as ++ bs).drop (as.length - windowSize) := by
      rw [List.drop_append_of_le_length (by omega)]
    have hCount :
        as.length - windowSize +
            ((as ++ bs).length - (as.length - windowSize) -
              windowSize) =
          (as ++ bs).length - windowSize := by
      rw [List.length_append]
      omega
    rw [hDrop, List.drop_drop, List.length_drop, hCount]

theorem lastBytes_suffix (bytes : List UInt8) :
    lastBytes bytes <:+ bytes :=
  List.drop_suffix _ _

/- What is in reach of the end is in reach of the whole. -/
theorem lastBytes_mono
    {as bs : List UInt8}
    (hSuffix : as <:+ bs) :
    lastBytes as <:+ lastBytes bs := by
  apply List.suffix_of_suffix_length_le
    ((lastBytes_suffix as).trans hSuffix)
    (lastBytes_suffix bs)
  have hLe := hSuffix.length_le
  unfold lastBytes
  rw [List.length_drop, List.length_drop]
  omega

/-
  The decoder between two symbols: the bits behind the last
  byte boundary, the output a distance can reach, the mode.
-/
structure Decoder where
  offset : Nat
  window : List UInt8
  mode : Mode
  offset_lt : offset < 8
  window_le : window.length ≤ windowSize

/- A decoder at the begin of a stream, with a dictionary. -/
def Decoder.start (dictionary : List UInt8) : Decoder where
  offset := 0
  window := lastBytes dictionary
  mode := .header
  offset_lt := by decide
  window_le := length_lastBytes_le dictionary

@[simp] theorem Decoder.start_window
    (dictionary : List UInt8) :
    (Decoder.start dictionary).window =
      lastBytes dictionary := rfl

/- The bytes that a copy from a distance adds. -/
def copied (window : List UInt8) (distance : Nat) :
    Nat → List UInt8
  | 0 => []
  | n + 1 =>
      copied window distance n ++
        [(window ++ copied window distance n).getD
          (window.length + n - distance) 0]

/- What comes next: the mode behind it, and output. -/
def Decoder.next (d : Decoder) :
    BitReader (Mode × List UInt8) :=
  match d.mode with
  | .header => do
      let mode ← blockHeader d.offset
      pure (mode, [])
  | .stored final left => do
      let b ← nat 8
      pure (.ofStored final (left - 1), [UInt8.ofNat b])
  | .codes final lits dists => do
      let s ← symbol lits dists
      match s with
      | .literal b => pure (d.mode, [b])
      | .copy length distance =>
          if distance ≤ d.window.length then
            pure (d.mode, copied d.window distance length)
          else fail
      | .endOfBlock => pure (.behind final, [])
  | .done => fail

/- The decoder behind `n` bits. -/
def Decoder.after
    (d : Decoder) (n : Nat) (next : Mode × List UInt8) :
    Decoder where
  offset := (d.offset + n) % 8
  window := lastBytes (d.window ++ next.2)
  mode := next.1
  offset_lt := Nat.mod_lt _ (by decide)
  window_le := length_lastBytes_le _

@[simp] theorem Decoder.after_window_nil
    (d : Decoder) (n : Nat) (mode : Mode) :
    (d.after n (mode, [])).window = d.window := by
  simp only [Decoder.after, List.append_nil]
  exact lastBytes_of_le d.window_le

/- Bits that are read as a whole, and their output. -/
inductive Reads :
    Decoder → List Bool → List UInt8 → Decoder → Prop
  | nothing (d : Decoder) : Reads d [] [] d
  | next
      {d d' : Decoder} {used rest : List Bool}
      {out : List UInt8} {mode : Mode × List UInt8} :
      used ≠ [] →
      d.next.run used = some (mode, []) →
      Reads (d.after used.length mode) rest out d' →
      Reads d (used ++ rest) (mode.2 ++ out) d'

namespace Reads

variable {d d₁ d₂ : Decoder}
variable {bits bits' : List Bool} {out out' : List UInt8}

/- One step. -/
theorem one
    {mode : Mode × List UInt8}
    (hSome : bits ≠ [])
    (hNext : d.next.run bits = some (mode, [])) :
    Reads d bits mode.2 (d.after bits.length mode) := by
  have hStep := Reads.next hSome hNext (.nothing _)
  simpa using hStep

/- One step without output. -/
theorem silent
    {mode : Mode}
    {n : Nat}
    (hSome : 0 < n)
    (hLen : bits.length = n)
    (hNext : d.next.run bits = some ((mode, []), [])) :
    Reads d bits [] (d.after n (mode, [])) := by
  subst hLen
  exact one (List.ne_nil_of_length_pos hSome) hNext

/- What is read in two parts is read as a whole. -/
theorem trans
    (hFirst : Reads d bits out d₁)
    (hNext : Reads d₁ bits' out' d₂) :
    Reads d (bits ++ bits') (out ++ out') d₂ := by
  induction hFirst with
  | nothing d => exact hNext
  | next hSome hRun _ ih =>
      rw [List.append_assoc, List.append_assoc]
      exact .next hSome hRun (ih hNext)

/- The offset counts the bits. -/
theorem offset (hReads : Reads d bits out d₁) :
    d₁.offset = (d.offset + bits.length) % 8 := by
  induction hReads with
  | nothing d =>
      rw [List.length_nil, Nat.add_zero,
        Nat.mod_eq_of_lt d.offset_lt]
  | next _ _ _ ih =>
      rw [ih, List.length_append]
      simp only [Decoder.after]
      omega

/- The window is the end of all output. -/
theorem window (hReads : Reads d bits out d₁) :
    d₁.window = lastBytes (d.window ++ out) := by
  induction hReads with
  | nothing d =>
      rw [List.append_nil, lastBytes_of_le d.window_le]
  | next _ _ _ ih =>
      rw [ih, ← List.append_assoc, Decoder.after,
        lastBytes_append]

/- The end of a dictionary and the output is in the window. -/
theorem suffix_window
    {before behind : List UInt8}
    (hReads : Reads d bits out d₁)
    (hBefore : lastBytes before <:+ d.window)
    (hBehind : behind <:+ before ++ out) :
    lastBytes behind <:+ d₁.window := by
  rcases hBefore with ⟨front, hFront⟩
  have hEnd :
      lastBytes (before ++ out) <:+ d₁.window := by
    rw [hReads.window, ← lastBytes_append, ← hFront,
      List.append_assoc]
    exact lastBytes_mono (List.suffix_append _ _)
  exact (lastBytes_mono hBehind).trans hEnd

/- Without bits nothing happens. -/
theorem of_nil (hReads : Reads d [] out d₁) :
    out = [] ∧ d₁ = d := by
  generalize hNone : ([] : List Bool) = none at hReads
  cases hReads with
  | nothing _ => exact ⟨rfl, rfl⟩
  | next hSome _ _ =>
      exact absurd (List.append_eq_nil_iff.mp hNone.symm).1
        hSome

/- The final block is the last one. -/
theorem of_done
    (hReads : Reads d bits out d₁)
    (hDone : d.mode = .done) :
    bits = [] ∧ out = [] ∧ d₁ = d := by
  cases hReads with
  | nothing d => exact ⟨rfl, rfl, rfl⟩
  | next hSome hRun hRest =>
      unfold Decoder.next at hRun
      rw [hDone] at hRun
      cases hRun

/-
  There is one way to read: what reads more bits of a stream
  passes where fewer of them are read.
-/
theorem passes
    {more : List Bool}
    (hReads : Reads d bits out d₁)
    (hMore : Reads d (bits ++ more) out' d₂) :
    ∃ rest, out' = out ++ rest ∧ Reads d₁ more rest d₂ := by
  induction hReads generalizing out' with
  | nothing d => exact ⟨out', rfl, hMore⟩
  | @next d d' used bits out mode hSome hRun hRest ih =>
      rw [List.append_assoc] at hMore
      generalize hAll : used ++ (bits ++ more) = all at hMore
      cases hMore with
      | nothing _ =>
          exact absurd (List.append_eq_nil_iff.mp hAll).1
            hSome
      | @next _ _ used' rest' out₂ mode' hSome' hRun' hRest' =>
          rcases run_unique hRun hRun' hAll with
            ⟨rfl, rfl, rfl⟩
          rcases ih hRest' with ⟨rest, rfl, hFrom⟩
          exact ⟨rest, (List.append_assoc _ _ _).symm, hFrom⟩

/-
  What has an end is read in one way: whatever else is read of
  it is the front of it, and all of it at its end.
-/
theorem within
    {more more' : List Bool}
    (hReads : Reads d bits out d₁)
    (hDone : d₁.mode = .done)
    (hReads' : Reads d bits' out' d₂)
    (hSame : bits ++ more = bits' ++ more') :
    bits' <+: bits ∧ out' <+: out ∧
      (d₂.mode = .done → bits' = bits ∧ out' = out) := by
  rcases List.append_eq_append_iff.mp hSame with
    ⟨rest, rfl, _⟩ | ⟨rest, rfl, _⟩
  · -- more than all of it cannot be read
    rcases hReads.passes hReads' with ⟨out₁, rfl, hRest⟩
    rcases hRest.of_done hDone with ⟨rfl, rfl, _⟩
    simp
  · rcases hReads'.passes hReads with ⟨out₁, rfl, hRest⟩
    refine ⟨List.prefix_append _ _, List.prefix_append _ _,
      fun hEnd => ?_⟩
    rcases hRest.of_done hEnd with ⟨rfl, rfl, _⟩
    simp

end Reads

------------------------------------------------------------
-- Markers and the End
------------------------------------------------------------

/- Among the codes of a fixed block. -/
def Mode.openFixed (final : Bool) : Mode :=
  .codes final fixedLits fixedDists

/- The end of a fixed block. -/
theorem run_endOfBlock :
    (symbol fixedLits fixedDists).run endOfBlock =
      some (.endOfBlock, []) := by
  decide +kernel

section Marks

variable {d d₁ : Decoder} {bits : List Bool}
variable {out : List UInt8} {final : Bool}
variable {lits dists : List Nat}

/- A literal is output, and the block goes on. -/
theorem reads_literal
    {b : UInt8}
    (hMode : d.mode = .codes final lits dists)
    (hSome : bits ≠ [])
    (hSymbol :
      (symbol lits dists).run bits =
        some (.literal b, [])) :
    Reads d bits [b]
      (d.after bits.length
        (.codes final lits dists, [b])) := by
  have hNext :
      d.next.run bits =
        some ((.codes final lits dists, [b]), []) := by
    unfold Decoder.next
    rw [hMode]
    simp only [run_bind]
    rw [hSymbol]
    rfl
  exact Reads.one hSome hNext

/- The header of a fixed block opens it. -/
theorem reads_fixedHeader
    (final : Bool)
    (hMode : d.mode = .header) :
    Reads d [final, true, false] []
      (d.after 3 (.openFixed final, [])) := by
  apply Reads.silent (Nat.succ_pos 2) rfl
  unfold Decoder.next
  rw [hMode]
  cases final <;> rfl

/- The end of a fixed block closes it. -/
theorem reads_endOfBlock
    (final : Bool)
    (hMode : d.mode = .openFixed final) :
    Reads d endOfBlock []
      (d.after 7 (.behind final, [])) := by
  apply Reads.silent (by decide) rfl
  unfold Decoder.next
  rw [hMode]
  simp only [Mode.openFixed, run_bind]
  rw [run_endOfBlock]
  rfl

/-
  An empty stored block, padded from where it starts, leads to
  the header of the next one.
-/
theorem reads_emptyStored
    (pad : List Bool)
    (hMode : d.mode = .header)
    (hPad : pad.length = (8 - (d.offset + 3) % 8) % 8) :
    ∃ n,
      Reads d (storedHeader ++ (pad ++ bitsOf emptyStored)) []
        (d.after n (.header, [])) := by
  refine ⟨_, Reads.silent (Nat.succ_pos _) rfl ?_⟩
  rcases run_nat hPad with ⟨value, hSkip⟩
  have hKind : ∀ rest : List Bool,
      (nat 2).run (false :: false :: rest) =
        some (0, rest) := fun _ => rfl
  have hLen : (nat 16).run (bitsOf emptyStored) =
      some (0, (bitsOf emptyStored).drop 16) := by decide
  have hNlen :
      (nat 16).run ((bitsOf emptyStored).drop 16) =
        some (65535, []) := by decide
  have hHeader :
      (blockHeader d.offset).run
          (storedHeader ++ (pad ++ bitsOf emptyStored)) =
        some (.header, []) := by
    unfold blockHeader
    simp only [storedHeader, List.cons_append,
      List.nil_append, run_bind, run_bit_cons, hKind,
      Option.bind_some, if_true, run_append hSkip, hLen,
      hNlen]
    rfl
  unfold Decoder.next
  rw [hMode]
  simp only [run_bind, hHeader]
  rfl

/-
  A flush marker behind an open fixed block adds no output and
  opens the next block.
-/
theorem reads_syncMarker
    {dictionary : List UInt8}
    (hReads : Reads (.start dictionary) bits out d)
    (hOpen : d.mode = .openFixed false) :
    ∃ d',
      Reads (.start dictionary) (syncMarker bits) out d' ∧
        d'.mode = .openFixed false ∧
        d'.window = d.window := by
  have hEnd := reads_endOfBlock false hOpen
  have hOffset := hReads.offset
  have hStart :
      (Decoder.start dictionary).offset = 0 := rfl
  rw [hStart, Nat.zero_add] at hOffset
  rcases reads_emptyStored
      (d := d.after 7 (.behind false, []))
      (List.replicate
        ((8 - (bits ++ endOfBlock ++ storedHeader).length
          % 8) % 8) false) rfl
      (by
        simp only [Decoder.after, hOffset,
          List.length_replicate, List.length_append,
          endOfBlock, storedHeader, List.length_cons,
          List.length_nil]
        omega) with
    ⟨n, hStored⟩
  have hHeader := reads_fixedHeader (d :=
    (d.after 7 (.behind false, [])).after n (.header, []))
    false rfl
  have hAll := (hReads.trans hEnd).trans
    (hStored.trans hHeader)
  refine ⟨((d.after 7 (.behind false, [])).after n
    (.header, [])).after 3 (.openFixed false, []),
    ?_, rfl, by simp only [Decoder.after_window_nil]⟩
  unfold syncMarker flushed padByte
  simp only [List.append_nil, List.append_assoc]
    at hAll ⊢
  exact hAll

/-
  Closing a stream behind an open fixed block adds no output
  and ends it, with less than a byte of padding.
-/
theorem reads_closing
    {dictionary : List UInt8}
    (hReads : Reads (.start dictionary) bits out d)
    (hOpen : d.mode = .openFixed false) :
    ∃ body pad d',
      closing bits = body ++ pad ∧ pad.length < 8 ∧
        Reads (.start dictionary) body out d' ∧
        d'.mode = .done ∧
        d'.window = d.window := by
  have hEnd := reads_endOfBlock false hOpen
  have hHeader := reads_fixedHeader
    (d := d.after 7 (.behind false, [])) true rfl
  have hFinal := reads_endOfBlock true
    (d := (d.after 7 (.behind false, [])).after 3
      (.openFixed true, [])) rfl
  have hAll := ((hReads.trans hEnd).trans hHeader).trans
    hFinal
  simp only [List.append_nil] at hAll
  refine ⟨_, _, _, rfl, ?_, hAll, rfl, by simp⟩
  rw [List.length_replicate]
  omega

end Marks

end Rfc1951
