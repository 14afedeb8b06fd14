import GenWqe.Lib.Bits

/-
  The bit stream of RFC 1951 as a writer of fixed Huffman
  blocks produces it: an open block, data bits in it, flush
  markers between blocks, and the closing of the stream.

  Key definitions include:
    * `syncMarker` and `closing`
    * `Piece` and `render`

  Main results:
    * `syncMarker_bitsOf_append`
    * `closing_bitsOf_append`
    * `render_append`
-/

------------------------------------------------------------
-- Markers
------------------------------------------------------------

namespace BlockBits

open Bits

/- Header of a fixed block that is not the final one. -/
def fixedHeader : List Bool := [false, true, false]

/- Header of a stored block that is not the final one. -/
def storedHeader : List Bool := [false, false, false]

/- Header of a final fixed block. -/
def finalFixedHeader : List Bool := [true, true, false]

/- The end-of-block symbol of a fixed block. -/
def endOfBlock : List Bool := List.replicate 7 false

/- The bytes of an empty stored block behind its header. -/
def emptyStored : List UInt8 := [0x00, 0x00, 0xff, 0xff]

/-
  A flush marker behind an open fixed block, without the
  header of the block that follows it.
-/
def flushed (bits : List Bool) : List Bool :=
  padByte (bits ++ endOfBlock ++ storedHeader) ++
    bitsOf emptyStored

/- A flush marker and the start of the next fixed block. -/
def syncMarker (bits : List Bool) : List Bool :=
  flushed bits ++ fixedHeader

/-
  The end of a stream behind an open fixed block: the block
  ends and an empty final block follows.
-/
def closing (bits : List Bool) : List Bool :=
  padByte
    (bits ++ endOfBlock ++ finalFixedHeader ++ endOfBlock)

theorem flushed_bitsOf_append
    (bs : List UInt8) (bits : List Bool) :
    flushed (bitsOf bs ++ bits) =
      bitsOf bs ++ flushed bits := by
  simp only [flushed, List.append_assoc,
    padByte_bitsOf_append]

/- Whole bytes in front of a marker stay as they are. -/
theorem syncMarker_bitsOf_append
    (bs : List UInt8) (bits : List Bool) :
    syncMarker (bitsOf bs ++ bits) =
      bitsOf bs ++ syncMarker bits := by
  simp only [syncMarker, flushed_bitsOf_append,
    List.append_assoc]

/- Whole bytes in front of the end stay as they are. -/
theorem closing_bitsOf_append
    (bs : List UInt8) (bits : List Bool) :
    closing (bitsOf bs ++ bits) =
      bitsOf bs ++ closing bits := by
  simp only [closing, List.append_assoc,
    padByte_bitsOf_append]

/- A flush marker ends on a byte boundary. -/
theorem length_flushed_mod (bits : List Bool) :
    (flushed bits).length % 8 = 0 := by
  have hPad := length_padByte_mod
    (bits ++ endOfBlock ++ storedHeader)
  simp only [flushed, List.length_append, length_bitsOf]
  omega

------------------------------------------------------------
-- Pieces
------------------------------------------------------------

/- What a writer appends to an open stream. -/
inductive Piece where
  | data (bits : List Bool)
  | sync
  deriving DecidableEq, Repr

/- One piece written behind the bits so far. -/
def write (bits : List Bool) : Piece → List Bool
  | .data new => bits ++ new
  | .sync => syncMarker bits

/- All pieces written behind the start of a stream. -/
def render (start : List Bool) (pieces : List Piece) :
    List Bool :=
  pieces.foldl write start

@[simp] theorem render_nil (start : List Bool) :
    render start [] = start := rfl

theorem render_append
    (start : List Bool) (as bs : List Piece) :
    render start (as ++ bs) =
      render (render start as) bs := by
  simp [render]

end BlockBits
