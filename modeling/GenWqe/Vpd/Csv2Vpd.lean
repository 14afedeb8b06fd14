import GenWqe.Lib.Records
import GenWqe.Vpd.Cksum
import GenWqe.Vpd.Convert

/-
  `convert_csv` of `genwqe_csv2vpd.c`: the bytes that the
  lines of a file put into an image, and the checksum of the
  image; none stands for a store outside of the line buffer.

  Key definitions include:
    * `scanHex`, `separator`, `scanLine`
    * `OutFile`, `convertCsv`
    * `fileEntries`, `writtenAt`, `namedAt`
    * `CoversImage`

  Main results:
    * `convertLines_eq`
    * `length_putAll`, `lastByte_putAll`
    * `convertCsv_covers_iff`
-/

------------------------------------------------------------
-- Tokens
------------------------------------------------------------

namespace Csv2Vpd

open Vpd

/- `tolower(c) == 'x'` -/
def isX (c : UInt8) : Bool := decide (c = 0x78 ∨ c = 0x58)

/- `isxdigit` in the C locale -/
def isHexDigit (c : UInt8) : Bool :=
  isDigit c ||
    decide (0x61 ≤ c ∧ c ≤ 0x66 ∨ 0x41 ≤ c ∧ c ≤ 0x46)

/- The value of a hexadecimal digit. -/
def hexValue (c : UInt8) : Nat :=
  if isDigit c then c.toNat - 0x30
  else if 0x61 ≤ c then c.toNat - 0x57
  else c.toNat - 0x37

/-
  `sscanf` with `%x`, which goes through an unsigned 64 bit
  number that saturates; none if no digit was found.
-/
def scanHex (s : List UInt8) : Option UInt32 :=
  let s := s.dropWhile isSpace
  let (negative, s) :=
    match s with
    | 0x2d :: s => (true, s)
    | 0x2b :: s => (false, s)
    | s => (false, s)
  let s :=
    match s with
    | 0x30 :: x :: rest => if isX x then rest else s
    | s => s
  let digits := s.takeWhile isHexDigit
  if digits = [] then none
  else
    let v := digits.foldl (fun v c => 16 * v + hexValue c) 0
    let v :=
      if 2 ^ 64 ≤ v then 2 ^ 64 - 1
      else if negative then 2 ^ 64 - v
      else v
    some (UInt32.ofNat v)

/- A token of the form 0x… -/
def hexToken : List UInt8 → Option UInt32
  | 0x30 :: x :: s => if isX x then scanHex s else none
  | _ => none

/- `crc_token`: the characters of crc32. -/
def crc32Token : List UInt8 := [0x63, 0x72, 0x63, 0x33, 0x32]

------------------------------------------------------------
-- Lines
------------------------------------------------------------

/-
  The variables of `convert_csv` that outlive a line and that
  a line sets; `offset` is an int, by its bits.
-/
structure Vars where
  offset : UInt32
  value : UInt32
  crc32Seek : UInt32

/- The variables of one line. -/
structure Line extends Vars where
  token : List UInt8
  fieldNum : Nat
  numFields : Nat
  parseError : Bool

def Line.start (vars : Vars) : Line where
  toVars := vars
  token := []
  fieldNum := 0
  numFields := 0
  parseError := false

/- The end of a field. -/
def Line.next (x : Line) : Line :=
  { x with token := [], fieldNum := x.fieldNum + 1 }

/-
  A comma or the end of the line. After an error the field
  goes on: its characters and number are kept.
-/
def separator (x : Line) : Line :=
  if x.token = [] then x.next
  else
    match x.fieldNum with
    | 0 =>
        match hexToken x.token with
        | none => { x with parseError := true }
        | some offset =>
            { x with
              offset := offset
              numFields := x.numFields + 1 }.next
    | 1 => { x with numFields := x.numFields + 1 }.next
    | 6 =>
        if x.token.take 5 = crc32Token ∧ x.crc32Seek = 0 then
          { x with crc32Seek := x.offset }.next
        else x.next
    | 9 =>
        match hexToken x.token with
        | none => { x with parseError := true }
        | some value =>
            { x with
              value := value
              numFields := x.numFields + 1 }.next
    | _ => x.next

/- One character of a line. -/
def character (x : Line) (c : UInt8) : Line :=
  if c = comma ∨ c = 0 then separator x
  else { x with token := x.token ++ [c] }

/- What an accepted line puts into the image. -/
structure Entry where
  offset : Int
  data : UInt8

/- What is written behind the loop over the characters. -/
def Line.entry (x : Line) : Option Entry :=
  if ¬ x.parseError ∧ (x.numFields = 3 ∨ x.numFields = 2) then
    some ⟨asSigned 32 x.offset.toNat, x.value.toUInt8⟩
  else none

/-
  A line as `fgets` has read it, its last two characters cut
  off. A line that is shorter is written outside of.
-/
def scanLine (vars : Vars) (line : List UInt8) :
    Option (Vars × Option Entry) :=
  let line := cString line
  if line.length < 2 then none
  else
    let line := line.take (line.length - 2)
    match line with
    | 0x30 :: x :: _ =>
        if isX x then
          let behind :=
            (line ++ [0]).foldl character (Line.start vars)
          some (behind.toVars, behind.entry)
        else some (vars, none)
    | _ => some (vars, none)

------------------------------------------------------------
-- The Image
------------------------------------------------------------

/- A file that is written, with its position. -/
structure OutFile where
  bytes : List UInt8
  pos : Nat

/- `fseek` from the start, which fails for a negative offset. -/
def OutFile.fseek (op : OutFile) (offset : Int) : OutFile :=
  if 0 ≤ offset then { op with pos := offset.toNat } else op

/- `fwrite`; a gap in front of the position reads as zeros. -/
def OutFile.fwrite (op : OutFile) (data : List UInt8) :
    OutFile where
  bytes :=
    (op.bytes ++
        List.replicate (op.pos - op.bytes.length) 0).take
          op.pos ++ data ++ op.bytes.drop (op.pos + data.length)
  pos := op.pos + data.length

/- What is kept of the image: the file and `last_byte`. -/
structure Image where
  op : OutFile
  lastByte : Int

def Image.start : Image := ⟨⟨[], 0⟩, 0⟩

/- An accepted line; `last_byte` is an int. -/
def Image.put (image : Image) (e : Entry) : Image where
  op := (image.op.fseek e.offset).fwrite [e.data]
  lastByte :=
    if e.offset > image.lastByte then
      Int.bmod (e.offset + 1) (2 ^ 32)
    else image.lastByte

/- The loop over the lines. -/
def convertLines (vars : Vars) (image : Image) :
    List (List UInt8) → Option (Vars × Image)
  | [] => some (vars, image)
  | line :: lines =>
      match scanLine vars line with
      | none => none
      | some (vars, none) => convertLines vars image lines
      | some (vars, some e) =>
          convertLines vars (image.put e) lines

/-
  What `convert_csv` leaves: the image, the bytes of it that
  `memcrc` was given, and the file in the end.
-/
structure Converted where
  image : List UInt8
  lastByte : Int
  checked : Option (List UInt8)
  output : List UInt8
  ok : Bool

/- The part that adds the checksum. -/
def addChecksum (addCrc : Bool) (vars : Vars)
    (image : Image) : Converted :=
  let bytes := image.op.bytes
  let last := image.lastByte
  if addCrc ∧ vars.crc32Seek ≠ 0 then
    if last < 0 then ⟨bytes, last, none, bytes, false⟩
    else
      let buffer := bytes.take last.toNat
      if buffer.length = last then
        let op : OutFile := ⟨bytes, 0⟩
        let op := op.fseek vars.crc32Seek.toNat
        let op := op.fwrite (be32 (memcrc buffer))
        ⟨bytes, last, some buffer, op.bytes, true⟩
      else ⟨bytes, last, none, bytes, true⟩
  else ⟨bytes, last, none, bytes, true⟩

/-
  `convert_csv` on a file, with what its variables hold at the
  start.
-/
def convertCsv (vars : Vars) (addCrc : Bool)
    (file : List UInt8) : Option Converted :=
  match convertLines vars Image.start (fgetsAll file) with
  | none => none
  | some (vars, image) => some (addChecksum addCrc vars image)

------------------------------------------------------------
-- Entries
------------------------------------------------------------

/- The accepted lines of a file. -/
def fileEntries (vars : Vars) :
    List (List UInt8) → Option (List Entry)
  | [] => some []
  | line :: lines =>
      match scanLine vars line with
      | none => none
      | some (vars, none) => fileEntries vars lines
      | some (vars, some e) =>
          (fileEntries vars lines).map (e :: ·)

/-
  The places at which bytes are written: behind the byte
  before it where the offset cannot be sought.
-/
def writtenAt : Nat → List Entry → List Nat
  | _, [] => []
  | pos, e :: es =>
      let w := if 0 ≤ e.offset then e.offset.toNat else pos
      w :: writtenAt (w + 1) es

/- The offsets that can be sought. -/
def namedAt (es : List Entry) : List Nat :=
  es.filterMap fun e =>
    if 0 ≤ e.offset then some e.offset.toNat else none

/- The loop writes the accepted lines, one after the other. -/
theorem convertLines_eq
    (vars : Vars)
    (image : Image)
    (lines : List (List UInt8)) :
    (convertLines vars image lines).map Prod.snd =
      (fileEntries vars lines).map
        fun es => es.foldl Image.put image := by
  induction lines generalizing vars image with
  | nil => rfl
  | cons line lines ih =>
      unfold convertLines fileEntries
      rcases scanLine vars line with _ | ⟨vars', _ | e⟩
      · rfl
      · exact ih vars' image
      · simp only [Option.map_map]
        exact ih vars' (image.put e)

/- The offset of an accepted line is an int. -/
theorem offset_of_entry
    {x : Line}
    {e : Entry}
    (hEntry : x.entry = some e) :
    -2 ^ 31 ≤ e.offset ∧ e.offset < 2 ^ 31 := by
  unfold Line.entry at hEntry
  split at hEntry
  · cases hEntry
    have hLt := x.offset.toNat_lt
    simp only [asSigned]
    split <;> omega
  · cases hEntry

theorem offset_of_scanLine
    {vars vars' : Vars}
    {line : List UInt8}
    {e : Entry}
    (hScan : scanLine vars line = some (vars', some e)) :
    -2 ^ 31 ≤ e.offset ∧ e.offset < 2 ^ 31 := by
  unfold scanLine at hScan
  dsimp only at hScan
  split at hScan
  · cases hScan
  · split at hScan
    · split at hScan
      · simp only [Option.some.injEq, Prod.mk.injEq] at hScan
        exact offset_of_entry hScan.2
      · cases hScan
    · cases hScan

theorem offset_of_mem_fileEntries
    {vars : Vars}
    {lines : List (List UInt8)}
    {es : List Entry}
    {e : Entry}
    (hEntries : fileEntries vars lines = some es)
    (hMem : e ∈ es) :
    -2 ^ 31 ≤ e.offset ∧ e.offset < 2 ^ 31 := by
  induction lines generalizing vars es with
  | nil =>
      unfold fileEntries at hEntries
      cases hEntries
      cases hMem
  | cons line lines ih =>
      unfold fileEntries at hEntries
      cases hScan : scanLine vars line with
      | none =>
          rw [hScan] at hEntries
          cases hEntries
      | some scanned =>
          rcases scanned with ⟨vars', _ | e'⟩
          · rw [hScan] at hEntries
            exact ih hEntries hMem
          · rw [hScan] at hEntries
            rcases Option.map_eq_some_iff.mp hEntries with
              ⟨rest, hRest, rfl⟩
            rcases List.mem_cons.mp hMem with rfl | hBehind
            · exact offset_of_scanLine hScan
            · exact ih hRest hBehind

------------------------------------------------------------
-- The Length of the Image
------------------------------------------------------------

theorem length_fwrite (op : OutFile) (b : UInt8) :
    (op.fwrite [b]).bytes.length =
      max op.bytes.length (op.pos + 1) := by
  simp only [OutFile.fwrite, List.length_append,
    List.length_take, List.length_replicate,
    List.length_drop, List.length_singleton]
  omega

/- One accepted line in the file. -/
theorem put_op (image : Image) (e : Entry) :
    let w :=
      if 0 ≤ e.offset then e.offset.toNat else image.op.pos
    (image.put e).op.pos = w + 1 ∧
      (image.put e).op.bytes.length =
        max image.op.bytes.length (w + 1) := by
  unfold Image.put
  rw [length_fwrite]
  unfold OutFile.fseek OutFile.fwrite
  by_cases hSeek : 0 ≤ e.offset
  · simp only [if_pos hSeek]
    exact ⟨rfl, trivial⟩
  · simp only [if_neg hSeek]
    exact ⟨rfl, trivial⟩

/- The image ends behind the highest byte written. -/
theorem length_putAll (es : List Entry) (image : Image) :
    (es.foldl Image.put image).op.bytes.length =
      extent image.op.bytes.length
        (writtenAt image.op.pos es) := by
  induction es generalizing image with
  | nil => rfl
  | cons e es ih =>
      rcases put_op image e with ⟨hPos, hLength⟩
      rw [List.foldl_cons, ih, hPos, hLength]
      rfl

/- Without the greatest int `last_byte` does not wrap. -/
theorem lastByte_putAll
    {es : List Entry}
    (hSmall : ∀ e ∈ es, e.offset < 2 ^ 31 - 1)
    {image : Image}
    {l : Nat}
    (hLast : image.lastByte = l) :
    (es.foldl Image.put image).lastByte =
      watermark l (namedAt es) := by
  induction es generalizing image l with
  | nil => exact hLast
  | cons e es ih =>
      have hHere := hSmall e List.mem_cons_self
      have hRest := fun e' hMem =>
        hSmall e' (List.mem_cons_of_mem e hMem)
      rw [List.foldl_cons]
      by_cases hSeek : 0 ≤ e.offset
      · have hNamed :
            namedAt (e :: es) =
              e.offset.toNat :: namedAt es := by
          simp [namedAt, hSeek]
        have hPut :
            (image.put e).lastByte =
              ((if l < e.offset.toNat then
                e.offset.toNat + 1 else l : Nat) : Int) := by
          simp only [Image.put, hLast]
          by_cases hNew : l < e.offset.toNat
          · have hWrap :
                Int.bmod (e.offset + 1) (2 ^ 32) =
                  e.offset + 1 := by
              rw [Int.bmod_def]
              omega
            rw [if_pos (by omega), if_pos hNew, hWrap]
            omega
          · rw [if_neg (by omega), if_neg hNew]
        rw [hNamed]
        exact ih hRest hPut
      · have hNamed : namedAt (e :: es) = namedAt es := by
          simp [namedAt, hSeek]
        have hPut : (image.put e).lastByte = l := by
          simp only [Image.put, hLast]
          rw [if_neg (by omega)]
        rw [hNamed]
        exact ih hRest hPut

/- As an int it stays below 2 GiB. -/
theorem lastByte_putAll_lt
    (es : List Entry)
    {image : Image}
    (hLast : image.lastByte < 2 ^ 31) :
    (es.foldl Image.put image).lastByte < 2 ^ 31 := by
  induction es generalizing image with
  | nil => exact hLast
  | cons e es ih =>
      rw [List.foldl_cons]
      apply ih
      simp only [Image.put]
      split
      · rw [Int.bmod_def]
        omega
      · exact hLast

/- A named offset is one at which a byte is written. -/
theorem namedAt_subset (es : List Entry) (pos : Nat) :
    namedAt es ⊆ writtenAt pos es := by
  induction es generalizing pos with
  | nil => exact List.Subset.refl []
  | cons e es ih =>
      unfold writtenAt
      by_cases hSeek : 0 ≤ e.offset
      · have hNamed :
            namedAt (e :: es) =
              e.offset.toNat :: namedAt es := by
          simp [namedAt, hSeek]
        rw [hNamed]
        simp only [if_pos hSeek]
        exact List.cons_subset_cons _ (ih _)
      · have hNamed : namedAt (e :: es) = namedAt es := by
          simp [namedAt, hSeek]
        rw [hNamed]
        exact List.subset_cons_of_subset _ (ih _)

------------------------------------------------------------
-- The Checksum Covers the Image
------------------------------------------------------------

/-
  What the lines are to be: the offsets that are a new highest
  one end with an even number of steps of one, no byte behind
  all of them is written at an offset that cannot be sought,
  and no offset is the greatest int.
-/
structure Noticed (es : List Entry) : Prop where
  even : Even (lateRun (recordSteps 0 (namedAt es)))
  named :
    extent 0 (writtenAt 0 es) = extent 0 (namedAt es)
  small : ∀ e ∈ es, e.offset ≠ 2 ^ 31 - 1

/- The length is right exactly for such lines. -/
theorem lastByte_eq_iff
    {es : List Entry}
    (hInt : ∀ e ∈ es, e.offset < 2 ^ 31) :
    (es.foldl Image.put Image.start).lastByte =
        extent 0 (writtenAt 0 es) ↔
      Noticed es := by
  have hNamed :
      extent 0 (namedAt es) ≤ extent 0 (writtenAt 0 es) :=
    extent_mono (namedAt_subset es 0)
  have hMark := watermark_le (namedAt es)
  constructor
  · intro hLast
    have hSmall : ∀ e ∈ es, e.offset ≠ 2 ^ 31 - 1 := by
      intro e hMem hGreatest
      have hBound :=
        lastByte_putAll_lt es
          (by decide : Image.start.lastByte < 2 ^ 31)
      have hPlace : e.offset.toNat ∈ namedAt es := by
        apply List.mem_filterMap.mpr
        refine ⟨e, hMem, ?_⟩
        rw [if_pos (by omega)]
      have hBelow := lt_extent (h := 0)
        (namedAt_subset es 0 hPlace)
      omega
    have hEq :=
      lastByte_putAll (l := 0)
        (fun e hMem => by
          have hLt := hInt e hMem
          have hNe := hSmall e hMem
          omega)
        (rfl : Image.start.lastByte = 0)
    rw [hEq] at hLast
    have hNat :
        watermark 0 (namedAt es) =
          extent 0 (writtenAt 0 es) := by
      exact_mod_cast hLast
    refine ⟨?_, by omega, hSmall⟩
    exact (watermark_eq_iff _).mp (by omega)
  · intro hNoticed
    have hEq :=
      lastByte_putAll (l := 0)
        (fun e hMem => by
          have hLt := hInt e hMem
          have hNe := hNoticed.small e hMem
          omega)
        (rfl : Image.start.lastByte = 0)
    rw [hEq, hNoticed.named,
      (watermark_eq_iff _).mpr hNoticed.even]

/-
  For what a file is converted to: `last_byte` is one more
  than the highest offset at which a byte was written, so is
  the length of the image, and the checksum is of all of it.
-/
def CoversImage (vars : Vars) (addCrc : Bool)
    (file : List UInt8) : Prop :=
  ∀ es r,
    fileEntries vars (fgetsAll file) = some es →
      convertCsv vars addCrc file = some r →
        r.lastByte = extent 0 (writtenAt 0 es) ∧
          r.image.length = extent 0 (writtenAt 0 es) ∧
            ∀ buffer, r.checked = some buffer →
              buffer = r.image

theorem convertCsv_eq
    {vars : Vars}
    {file : List UInt8}
    {es : List Entry}
    (hEntries : fileEntries vars (fgetsAll file) = some es)
    (addCrc : Bool) :
    ∃ vars',
      convertCsv vars addCrc file =
        some (addChecksum addCrc vars'
          (es.foldl Image.put Image.start)) := by
  have hLines :=
    convertLines_eq vars Image.start (fgetsAll file)
  rw [hEntries] at hLines
  rcases Option.map_eq_some_iff.mp hLines with
    ⟨⟨vars', image⟩, hConvert, hImage⟩
  have hSame : image = es.foldl Image.put Image.start := hImage
  refine ⟨vars', ?_⟩
  unfold convertCsv
  rw [hConvert, hSame]

/- The checksum part takes image and length as they are. -/
theorem addChecksum_fields
    (addCrc : Bool) (vars : Vars) (image : Image) :
    (addChecksum addCrc vars image).image = image.op.bytes ∧
      (addChecksum addCrc vars image).lastByte =
        image.lastByte ∧
      ∀ buffer,
        (addChecksum addCrc vars image).checked =
            some buffer →
          buffer =
            image.op.bytes.take image.lastByte.toNat := by
  unfold addChecksum
  dsimp only
  split
  · split
    · exact ⟨rfl, rfl, fun _ hNone => by cases hNone⟩
    · split
      · exact ⟨rfl, rfl, fun _ hSome => by cases hSome; rfl⟩
      · exact ⟨rfl, rfl, fun _ hNone => by cases hNone⟩
  · exact ⟨rfl, rfl, fun _ hNone => by cases hNone⟩

/-
  For every file, and whatever the variables hold at the
  start: the checksum covers the image exactly where the
  accepted lines are such that no last byte is missed.
-/
theorem convertCsv_covers_iff
    (vars : Vars)
    (addCrc : Bool)
    (file : List UInt8) :
    CoversImage vars addCrc file ↔
      ∀ es, fileEntries vars (fgetsAll file) = some es →
        Noticed es := by
  constructor
  · intro hCovers es hEntries
    rcases convertCsv_eq hEntries addCrc with
      ⟨vars', hConvert⟩
    have hLast := (hCovers es _ hEntries hConvert).1
    rw [(addChecksum_fields _ _ _).2.1] at hLast
    exact (lastByte_eq_iff fun e hMem =>
      (offset_of_mem_fileEntries hEntries hMem).2).mp hLast
  · intro hNoticed es r hEntries hConvert
    rcases convertCsv_eq hEntries addCrc with
      ⟨vars', hResult⟩
    rw [hResult] at hConvert
    cases hConvert
    rcases addChecksum_fields addCrc vars'
        (es.foldl Image.put Image.start) with
      ⟨hImage, hLastByte, hChecked⟩
    have hLast :=
      (lastByte_eq_iff fun e hMem =>
        (offset_of_mem_fileEntries hEntries hMem).2).mpr
          (hNoticed es hEntries)
    have hLength := length_putAll es Image.start
    refine ⟨hLastByte.trans hLast, ?_, ?_⟩
    · rw [hImage, hLength]
      rfl
    · intro buffer hBuffer
      rw [hChecked buffer hBuffer, hImage]
      apply List.take_of_length_le
      rw [hLast, hLength]
      exact Nat.le_refl _

/- The line `0x0,a,,,,,,,,0x41` with its line end. -/
def oneByteLine : List UInt8 :=
  [0x30, 0x78, 0x30, 0x2c, 0x61, 0x2c, 0x2c, 0x2c, 0x2c, 0x2c,
    0x2c, 0x2c, 0x2c, 0x30, 0x78, 0x34, 0x31, 0x0d, 0x0a]

/- An image of one byte is left with a length of zero. -/
theorem convertCsv_misses_byte :
    ¬ CoversImage ⟨0, 0, 0⟩ true oneByteLine := by
  intro hCovers
  have hEntries :
      fileEntries ⟨0, 0, 0⟩ (fgetsAll oneByteLine) =
        some [⟨0, 0x41⟩] := by
    rfl
  rcases convertCsv_eq hEntries true with ⟨vars', hConvert⟩
  have hLast := (hCovers _ _ hEntries hConvert).1
  rw [(addChecksum_fields _ _ _).2.1] at hLast
  revert hLast
  decide

end Csv2Vpd
