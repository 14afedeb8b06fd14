import GenWqe.Vpd.Crc32

/-
  `genwqe_vpd_common.c`: the two converters between the VPD
  image of a card and its text form, with every access to a
  table or buffer checked; none stands for one outside.

  Key definitions include:
    * `VpdLayout`, `vpdRef102`
    * `bin2Csv`
    * `fgetsAll`, `scanInt`
    * `CsvState`, `csvLine`, `csv2Bin`
-/

------------------------------------------------------------
-- The Reference Table
------------------------------------------------------------

namespace Vpd

/- `struct vpd_layout`; a mode is one character. -/
structure VpdLayout where
  label : List UInt8
  length : Nat
  mode : UInt8
  deriving DecidableEq, Repr

/- The modes `A` and `X`: text and hexadecimal. -/
def modeA : UInt8 := 0x41
def modeX : UInt8 := 0x58

/- `vpd_ref_102`: RV, PN, EC, FN, SN, FC, CC, M0, M1, CS -/
def vpdRef102 : List VpdLayout :=
  [⟨[0x52, 0x56], 2, modeX⟩, ⟨[0x50, 0x4e], 7, modeA⟩,
    ⟨[0x45, 0x43], 7, modeA⟩, ⟨[0x46, 0x4e], 7, modeA⟩,
    ⟨[0x53, 0x4e], 13, modeA⟩, ⟨[0x46, 0x43], 5, modeA⟩,
    ⟨[0x43, 0x43], 4, modeA⟩, ⟨[0x4d, 0x30], 6, modeX⟩,
    ⟨[0x4d, 0x31], 6, modeX⟩, ⟨[0x43, 0x53], 4, modeX⟩]

/- `LINES_IN_VPD` -/
def linesInVpd : Nat := vpdRef102.length

/- `VPD_SIZE` -/
def vpdSize : Nat :=
  4 * linesInVpd + (2 + 7 + 7 + 7 + 13 + 5 + 4 + 6 + 6 + 4)

/- `VPD_VERSION` -/
def vpdVersion : UInt32 := 0x102

/- The version in the last two bytes of a `swap_me`. -/
def swapVersion (b c : UInt8) : UInt32 :=
  UInt32.ofNat (c.toNat + b.toNat * 2 ^ 8)

------------------------------------------------------------
-- Characters
------------------------------------------------------------

/- The string in front of the first zero. -/
def cString (bytes : List UInt8) : List UInt8 :=
  bytes.takeWhile (· != 0)

def comma : UInt8 := 0x2c
def quote : UInt8 := 0x22
def newline : UInt8 := 0x0a

/- `isprint` in the C locale -/
def isPrint (c : UInt8) : Bool :=
  decide (0x20 ≤ c ∧ c ≤ 0x7e)

/- A digit of `%x` -/
def hexDigit (n : UInt8) : UInt8 :=
  if n < 10 then 0x30 + n else 0x57 + n

/- `%2.2x` on a byte -/
def hexByte (b : UInt8) : List UInt8 :=
  [hexDigit (b >>> 4), hexDigit (b &&& 0x0f)]

/- `%d` on a number that is not negative -/
def decimal (n : Nat) : List UInt8 :=
  (Nat.toDigits 10 n).map fun c => UInt8.ofNat c.toNat

/- `a2h`, with a signed `char` -/
def a2h (c : UInt8) : UInt8 :=
  (if 0x41 ≤ c ∧ c < 0x80 then c - 7 else c) &&& 0x0f

/- `isspace` and `isdigit` in the C locale -/
def isSpace (c : UInt8) : Bool :=
  decide (c = 0x20 ∨ (0x09 ≤ c ∧ c ≤ 0x0d))

def isDigit (c : UInt8) : Bool :=
  decide (0x30 ≤ c ∧ c ≤ 0x39)

/-
  `sscanf` with `%d`, which goes through a 64 bit number that
  saturates; none if no digit was found.
-/
def scanInt (s : List UInt8) : Option Int :=
  let s := s.dropWhile isSpace
  let (negative, s) :=
    match s with
    | 0x2d :: s => (true, s)
    | 0x2b :: s => (false, s)
    | s => (false, s)
  let digits := s.takeWhile isDigit
  if digits = [] then none
  else
    let v : Int :=
      digits.foldl (fun v c => 10 * v + (c.toNat - 0x30)) 0
    let v := if negative then -v else v
    some (Int.bmod (max (-2 ^ 63) (min v (2 ^ 63 - 1))) (2 ^ 32))

------------------------------------------------------------
-- From the Image to Text
------------------------------------------------------------

/- The start of a line: label, length and mode. -/
def lineHead (ref : VpdLayout) : List UInt8 :=
  [quote] ++ ref.label ++ [quote, comma] ++
    decimal ref.length ++ [comma, quote] ++
    [ref.mode, quote, comma]

/-
  The data of a field as it is printed: in mode `A` the
  printable characters, in mode `X` all bytes.
-/
def lineData (mode : UInt8) (data : List UInt8) :
    List UInt8 :=
  if mode = modeA then
    [quote] ++ data.filter isPrint ++ [quote]
  else data.flatMap hexByte

/- The end of a line. -/
def lineEnd : List UInt8 := [comma, newline]

/-
  One round of the loop of `bin_2_csv`, for the entry of the
  table with the index `vpd_check_line`: whether it goes on,
  the text so far, and the buffer behind what was read.
-/
def binLine
    (ref : VpdLayout)
    (vpdCheckLine : Nat)
    (op buffer : List UInt8) :
    Option (Bool × List UInt8 × List UInt8) :=
  match buffer with
  | l₀ :: l₁ :: length :: mode :: buffer =>
      if cString [l₀, l₁] ≠ ref.label then
        some (false, op, buffer)
      else if length.toNat ≠ ref.length then
        some (false, op, buffer)
      else if mode ≠ ref.mode then some (false, op, buffer)
      else
        let op := op ++ lineHead ref
        if mode = modeX ∧ vpdCheckLine = 0 ∧
            buffer.length < 2 then none
        else if mode = modeX ∧ vpdCheckLine = 0 ∧
            swapVersion (buffer.getD 0 0) (buffer.getD 1 0) ≠
              vpdVersion then
          some (false, op, buffer)
        else if buffer.length < ref.length then none
        else
          some (true,
            op ++ lineData mode (buffer.take ref.length) ++
              lineEnd,
            buffer.drop ref.length)
  | _ => none

/-
  The loop of `bin_2_csv`, with the entries of the table from
  `vpd_check_line` on. It ends when `fs` is zero.
-/
def bin2CsvLoop :
    List VpdLayout → Nat → Int → List UInt8 → List UInt8 →
      Option (Bool × List UInt8)
  | refs, vpdCheckLine, fs, op, buffer =>
    if fs = 0 then
      some (decide (linesInVpd = vpdCheckLine), op)
    else
      match refs with
      | [] => none
      | ref :: refs =>
        match binLine ref vpdCheckLine op buffer with
        | none => none
        | some (false, op, _) => some (false, op)
        | some (true, op, buffer) =>
            bin2CsvLoop refs (vpdCheckLine + 1)
              (fs - (4 + ref.length)) op buffer

/-
  `bin_2_csv` on a buffer of which `fs` bytes are valid: what
  it returns, and the text that it has written.
-/
def bin2Csv (fs : Int) (buffer : List UInt8) :
    Option (Bool × List UInt8) :=
  bin2CsvLoop vpdRef102 0 fs [] buffer

------------------------------------------------------------
-- From Text to the Image
------------------------------------------------------------

/- `MAX_LINE` -/
def maxLine : Nat := 512

/- `GENWQE_VPD_BUFFER_SIZE` -/
def vpdBufferSize : Nat := 64 * 1024

/-
  What `fgets` reads, call by call: it stops behind a newline,
  and when the line buffer is full.
-/
def fgetsFrom (read : List UInt8) :
    List UInt8 → List (List UInt8)
  | [] => if read = [] then [] else [read]
  | c :: file =>
      if c = newline ∨ read.length + 2 = maxLine then
        (read ++ [c]) :: fgetsFrom [] file
      else fgetsFrom (read ++ [c]) file

def fgetsAll (file : List UInt8) : List (List UInt8) :=
  fgetsFrom [] file

/-
  The variables of `csv_2_bin` that outlive a line. The image
  so far is what lies in front of `seek_offset`; none stands
  for a checksum that was not read.
-/
structure CsvState where
  mode : UInt8
  dataLen : Int
  writeSize : Nat
  buffer : List UInt8
  crc32 : UInt32
  vpdCheckLine : Nat
  getCrcValue : Bool
  csvCrc : Option UInt32
  goodLines : Nat

def CsvState.start : CsvState where
  mode := 0
  dataLen := 0
  writeSize := 0
  buffer := []
  crc32 := crc32InitSeed
  vpdCheckLine := 0
  getCrcValue := false
  csvCrc := none
  goodLines := 0

/- The variables of one line; `skipped` is the jump of `i`. -/
structure CsvLine where
  st : CsvState
  token : List UInt8
  data : ByteMem
  fieldNum : Nat
  numFields : Nat
  parseError : Bool
  skipped : Bool

def CsvLine.start (st : CsvState) : CsvLine where
  st := st
  token := []
  data := fun _ => 0
  fieldNum := 0
  numFields := 0
  parseError := false
  skipped := false

/- A store into `data`. -/
def storeData
    (data : ByteMem) (off : Int) (bytes : List UInt8) :
    Option ByteMem :=
  if 0 ≤ off ∧ off + bytes.length ≤ maxLine then
    some (data.store off.toNat bytes)
  else none

/- `crc_token` -/
def crcToken : List UInt8 := [0x43, 0x53]

/- The key, two bytes; a line with another one is skipped. -/
def keyField (x : CsvLine) : Option CsvLine :=
  if x.token.length = 2 then
    (vpdRef102[x.st.vpdCheckLine]?).bind fun ref =>
    (storeData x.data 0 x.token).map fun data =>
      { x with
        data := data
        st :=
          { x.st with
            getCrcValue :=
              x.st.getCrcValue || x.token == crcToken }
        parseError := x.parseError || x.token != ref.label }
  else some { x with skipped := true }

/- The length. -/
def lengthField (x : CsvLine) : Option CsvLine :=
  let x := { x with parseError := true }
  match scanInt x.token with
  | none => some x
  | some dataLen =>
    let x := { x with st := { x.st with dataLen := dataLen } }
    (vpdRef102[x.st.vpdCheckLine]?).bind fun ref =>
      if dataLen = ref.length then
        (storeData x.data 2 [UInt8.ofNat ref.length]).map
          fun data =>
            { x with
              data := data
              st := { x.st with writeSize := 4 + ref.length }
              parseError := false }
      else some x

/- The mode. -/
def modeField (x : CsvLine) : Option CsvLine :=
  let x := { x with parseError := true }
  match x.token with
  | [mode] =>
      let x := { x with st := { x.st with mode := mode } }
      (vpdRef102[x.st.vpdCheckLine]?).map fun ref =>
        if mode = ref.mode then { x with parseError := false }
        else x
  | _ => some x

/-
  The conversion of hexadecimal digits, from the end of the
  token on, into the bytes from the end of the field on.
-/
def hexLoop :
    List UInt8 → Int → ByteMem → Option (Int × ByteMem)
  | [], dataLen, data => some (dataLen, data)
  | [l], dataLen, data =>
      (storeData data (3 + dataLen) [a2h l]).map fun data =>
        (dataLen - 1, data)
  | l :: h :: digits, dataLen, data =>
      (storeData data (3 + dataLen)
          [a2h l ||| (a2h h <<< 4)]).bind fun data =>
        hexLoop digits (dataLen - 1) data

/- What is looked at behind hexadecimal data. -/
def hexChecks (x : CsvLine) : CsvLine :=
  let x :=
    { x with
      parseError :=
        decide (x.st.vpdCheckLine = 0 ∧
          swapVersion (x.data 4) (x.data 5) ≠ vpdVersion) }
  if x.st.getCrcValue then
    { x with
      st :=
        { x.st with
          getCrcValue := false
          csvCrc := some (readBe32 x.data 4) } }
  else x

/- The data. -/
def dataField (x : CsvLine) : Option CsvLine :=
  let x := { x with parseError := true }
  (storeData x.data 3 [x.st.mode]).bind fun data =>
  let x := { x with data := data }
  (if x.st.mode = modeA then
      if (x.token.length : Int) ≤ x.st.dataLen then
        (storeData x.data 4 x.token).map fun data =>
          { x with data := data, parseError := false }
      else some x
    else if x.st.mode = modeX then
      if (x.token.length : Int) ≤ 2 * x.st.dataLen then
        (hexLoop x.token.reverse x.st.dataLen x.data).map
          fun (dataLen, data) =>
            hexChecks
              { x with
                data := data
                st := { x.st with dataLen := dataLen } }
      else some x
    else some x).map fun x =>
      if x.parseError then x
      else
        { x with
          st := { x.st with goodLines := x.st.goodLines + 1 } }

/- The end of a field. -/
def csvField (x : CsvLine) : Option CsvLine :=
  match x.fieldNum with
  | 0 => keyField x
  | 1 => lengthField x
  | 2 => modeField x
  | 3 => dataField x
  | _ => some x

/- A comma, or the end of the line. -/
def csvSeparator (x : CsvLine) : Option CsvLine :=
  (csvField x).map fun x =>
    if x.parseError then x
    else
      { x with
        token := []
        fieldNum := x.fieldNum + 1
        numFields := x.numFields + 1 }

/- The loop over the characters of a line. -/
def csvChars (x : CsvLine) : List UInt8 → Option CsvLine
  | [] => csvSeparator x
  | c :: line =>
      if c = comma then
        match csvSeparator x with
        | none => none
        | some x =>
            if x.parseError || x.skipped then some x
            else csvChars x line
      else if c = quote then csvChars x line
      else if x.token.length + 1 < maxLine then
        csvChars { x with token := x.token ++ [c] } line
      else none

/-
  One line: its last two characters are cut off, and what was
  found in it goes into the image if it has four fields. The
  check of the offset behind the copy comes too late to fail.
-/
def csvLine (st : CsvState) (line : List UInt8) :
    Option (Bool × CsvState) :=
  let line := cString line
  if line.length < 2 then none
  else
    (csvChars (CsvLine.start st)
        (line.take (line.length - 2))).bind fun x =>
      if x.parseError then some (false, x.st)
      else if x.numFields < 4 then some (true, x.st)
      else if
          x.st.writeSize ≤ maxLine ∧
            x.st.buffer.length + x.st.writeSize ≤
              vpdBufferSize then
        let bytes := x.data.window 0 x.st.writeSize
        some (true,
          { x.st with
            buffer := x.st.buffer ++ bytes
            crc32 := genwqeCrc32Gen bytes x.st.crc32
            vpdCheckLine := x.st.vpdCheckLine + 1 })
      else none

def csvLines (st : CsvState) :
    List (List UInt8) → Option (Bool × CsvState)
  | [] => some (decide (linesInVpd = st.goodLines), st)
  | line :: lines =>
    match csvLine st line with
    | none => none
    | some (false, st) => some (false, st)
    | some (true, st) => csvLines st lines

/-
  `csv_2_bin` on a file: what it returns, and the state with
  the image and the checksums.
-/
def csv2Bin (file : List UInt8) :
    Option (Bool × CsvState) :=
  csvLines CsvState.start (fgetsAll file)

end Vpd
