import GenWqe.Vpd.Convert

/-
  What one line means to `csv_2_bin`, by its fields: nothing,
  an error, an entry of the image, or an access outside of
  the table or of the line.

  Key definitions include:
    * `fieldsOf`
    * `unhex`, `payload`, `entry`
    * `Verdict`, `lineVerdict`
    * `Collected`, `LineResult`

  Main results:
    * `csvChars_eq`
    * `csvLine_result`
-/

------------------------------------------------------------
-- Fields
------------------------------------------------------------

namespace Vpd

/- The fields between the commas, without their quotes. -/
def fieldsOf (line : List UInt8) : List (List UInt8) :=
  (line.splitOnP (· == comma)).map (·.filter (· != quote))

/- The fields of a line one after the other. -/
def csvFields (x : CsvLine) :
    List (List UInt8) → Option CsvLine
  | [] => some x
  | field :: fields =>
    match csvSeparator { x with token := field } with
    | none => none
    | some x =>
        if x.parseError || x.skipped then some x
        else csvFields x fields

theorem fieldsOf_nil : fieldsOf [] = [[]] := rfl

theorem fieldsOf_comma (line : List UInt8) :
    fieldsOf (comma :: line) = [] :: fieldsOf line := by
  unfold fieldsOf
  rw [List.splitOnP_cons_eq_if_modifyHead]
  simp

theorem fieldsOf_other
    {c : UInt8}
    (hComma : c ≠ comma)
    (line : List UInt8) :
    fieldsOf (c :: line) =
      (fieldsOf line).modifyHead
        fun field =>
          if c = quote then field else c :: field := by
  unfold fieldsOf
  rw [List.splitOnP_cons_eq_if_modifyHead]
  have hNot : (c == comma) = false := by simpa using hComma
  rw [hNot]
  cases hSplit : line.splitOnP (· == comma) with
  | nil => rfl
  | cons field fields =>
      by_cases hQuote : c = quote
      · simp [hQuote]
      · simp [hQuote]

theorem fieldsOf_ne_nil (line : List UInt8) :
    fieldsOf line ≠ [] := by
  unfold fieldsOf
  rw [ne_eq, List.map_eq_nil_iff]
  exact List.splitOnP_ne_nil _ _

/- A separator leaves no token behind, or it has failed. -/
theorem csvSeparator_token
    {x x' : CsvLine}
    (hSep : csvSeparator x = some x')
    (hGood : x'.parseError = false) : x'.token = [] := by
  unfold csvSeparator at hSep
  rcases Option.map_eq_some_iff.mp hSep with ⟨y, _, rfl⟩
  cases hError : y.parseError with
  | true => simp [hError] at hGood
  | false => simp

/-
  The characters of a line are its fields; the first of them
  continues the token. The token has room for all of them.
-/
theorem csvChars_eq
    (x : CsvLine)
    (line : List UInt8)
    (hRoom : x.token.length + line.length < maxLine) :
    csvChars x line =
      csvFields x
        ((fieldsOf line).modifyHead (x.token ++ ·)) := by
  induction line generalizing x with
  | nil =>
      rw [fieldsOf_nil]
      simp only [csvChars, List.modifyHead_cons,
        List.append_nil, csvFields]
      cases csvSeparator x with
      | none => rfl
      | some x' => simp
  | cons c line ih =>
      rw [List.length_cons] at hRoom
      unfold csvChars
      by_cases hComma : c = comma
      · rw [if_pos hComma, hComma, fieldsOf_comma,
          List.modifyHead_cons, List.append_nil, csvFields]
        cases hSep : csvSeparator x with
        | none => rfl
        | some x' =>
            simp only
            by_cases hStop : (x'.parseError || x'.skipped) = true
            · rw [if_pos hStop, if_pos hStop]
            · rw [if_neg hStop, if_neg hStop]
              have hGood : x'.parseError = false := by
                cases hError : x'.parseError with
                | false => rfl
                | true => simp [hError] at hStop
              have hToken := csvSeparator_token hSep hGood
              rw [ih x' (by
                rw [hToken]
                simp only [List.length_nil]
                omega), hToken]
              cases fieldsOf line <;> rfl
      · rw [if_neg hComma, fieldsOf_other hComma]
        by_cases hQuote : c = quote
        · rw [if_pos hQuote, ih x (by omega)]
          simp only [hQuote, if_true]
          cases fieldsOf line <;> rfl
        · have hFits : x.token.length + 1 < maxLine := by omega
          rw [if_neg hQuote, if_pos hFits, ih _ (by
            simp only [List.length_append,
              List.length_singleton]
            omega)]
          simp only [hQuote, if_false]
          cases hFields : fieldsOf line with
          | nil => exact absurd hFields (fieldsOf_ne_nil line)
          | cons field fields =>
              simp only [List.modifyHead_cons,
                List.append_assoc, List.singleton_append]
              rfl

------------------------------------------------------------
-- Entries
------------------------------------------------------------

/- Hexadecimal digits to bytes, both from the end on. -/
def unhex : List UInt8 → List UInt8
  | [] => []
  | [l] => [a2h l]
  | l :: h :: digits =>
      (a2h l ||| (a2h h <<< 4)) :: unhex digits

/- The zeros that a field is filled up with. -/
def filling (n : Nat) (bytes : List UInt8) : List UInt8 :=
  List.replicate (n - bytes.length) 0

/-
  The bytes of a field of text, which is filled up at its end,
  or of digits, which are filled up in front.
-/
def payload (ref : VpdLayout) (field : List UInt8) :
    List UInt8 :=
  if ref.mode = modeA then
    field ++ filling ref.length field
  else
    filling ref.length (unhex field.reverse) ++
      (unhex field.reverse).reverse

/- The four bytes in front of the data of an entry. -/
def entryHead (ref : VpdLayout) : List UInt8 :=
  ref.label ++ [UInt8.ofNat ref.length, ref.mode]

/- The first entry holds the version. -/
def GoodVersion (k : Nat) (data : List UInt8) : Prop :=
  k = 0 →
    swapVersion (data.getD 0 0) (data.getD 1 0) = vpdVersion

instance (k : Nat) (data : List UInt8) :
    Decidable (GoodVersion k data) :=
  inferInstanceAs (Decidable (_ → _))

/- A field is not too long for its entry. -/
def FieldFits
    (k : Nat) (ref : VpdLayout) (field : List UInt8) :
    Prop :=
  if ref.mode = modeA then field.length ≤ ref.length
  else
    field.length ≤ 2 * ref.length ∧
      GoodVersion k (payload ref field)

instance
    (k : Nat) (ref : VpdLayout) (field : List UInt8) :
    Decidable (FieldFits k ref field) :=
  inferInstanceAs (Decidable (ite _ _ _))

theorem length_unhex (digits : List UInt8) :
    (unhex digits).length = (digits.length + 1) / 2 := by
  induction digits using unhex.induct with
  | case1 => rfl
  | case2 l => simp [unhex]
  | case3 l h digits ih =>
      rw [unhex, List.length_cons, ih, List.length_cons,
        List.length_cons]
      omega

theorem length_payload
    {ref : VpdLayout}
    {k : Nat}
    {field : List UInt8}
    (hFits : FieldFits k ref field) :
    (payload ref field).length = ref.length := by
  unfold FieldFits at hFits
  unfold payload filling
  split
  · rename_i hMode
    rw [if_pos hMode] at hFits
    simp
    omega
  · rename_i hMode
    rw [if_neg hMode] at hFits
    simp [length_unhex]
    omega

/- What is fixed for all entries of the table. -/
structure Fixed (ref : VpdLayout) : Prop where
  label : ref.label.length = 2
  long : 2 ≤ ref.length
  short : ref.length ≤ 13
  mode : ref.mode = modeA ∨ ref.mode = modeX

theorem fixed_of_mem
    {ref : VpdLayout}
    (hMem : ref ∈ vpdRef102) : Fixed ref := by
  have hAll :
      ∀ ref ∈ vpdRef102,
        ref.label.length = 2 ∧ 2 ≤ ref.length ∧
          ref.length ≤ 13 ∧
          (ref.mode = modeA ∨ ref.mode = modeX) := by
    decide
  rcases hAll ref hMem with ⟨hLabel, hLong, hShort, hMode⟩
  exact ⟨hLabel, hLong, hShort, hMode⟩

theorem fixed_of_get
    {ref : VpdLayout}
    {k : Nat}
    (hRef : vpdRef102[k]? = some ref) : Fixed ref :=
  fixed_of_mem (List.mem_of_getElem? hRef)

------------------------------------------------------------
-- Verdicts
------------------------------------------------------------

/- What a line is. -/
inductive Verdict where
  | outside
  | refused
  | ignored
  | entry (bytes : List UInt8)
  deriving DecidableEq

/-
  What the fields of a line are, when `k` entries have been
  found before.
-/
def fieldsVerdict (k : Nat) : List (List UInt8) → Verdict
  | [] => .ignored
  | key :: fields =>
    if key.length ≠ 2 then .ignored
    else
      match vpdRef102[k]? with
      | none => .outside
      | some ref =>
        if key ≠ ref.label then .refused
        else
          match fields with
          | [] => .ignored
          | length :: fields =>
            if scanInt length ≠ some (ref.length : Int) then .refused
            else
              match fields with
              | [] => .ignored
              | mode :: fields =>
                if mode ≠ [ref.mode] then .refused
                else
                  match fields with
                  | [] => .ignored
                  | data :: _ =>
                    if FieldFits k ref data then
                      .entry (entryHead ref ++ payload ref data)
                    else .refused

/- The line without its last two characters. -/
def lineVerdict (k : Nat) (line : List UInt8) : Verdict :=
  if (cString line).length < 2 then .outside
  else
    fieldsVerdict k
      (fieldsOf
        ((cString line).take ((cString line).length - 2)))

/- An image of `k` entries has been collected. -/
structure Collected
    (k : Nat) (image : List UInt8) (st : CsvState) :
    Prop where
  buffer : st.buffer = image
  crc32 : st.crc32 = genwqeCrc32Gen image crc32InitSeed
  vpdCheckLine : st.vpdCheckLine = k
  goodLines : st.goodLines = k

/- What a line makes of the image. -/
inductive LineResult (k : Nat) (image : List UInt8) :
    Verdict → Option (Bool × CsvState) → Prop
  | outside : LineResult k image .outside none
  | refused {st : CsvState} :
      LineResult k image .refused (some (false, st))
  | ignored {st : CsvState} :
      Collected k image st →
      LineResult k image .ignored (some (true, st))
  | entry {st : CsvState} {bytes : List UInt8} :
      Collected (k + 1) (image ++ bytes) st →
      LineResult k image (.entry bytes) (some (true, st))

------------------------------------------------------------
-- Field by Field
------------------------------------------------------------

/- `data` behind the first `n` fields. -/
def headData (ref : VpdLayout) (n : Nat) : ByteMem :=
  if n = 0 then fun _ => 0
  else if n = 1 then
    ByteMem.store (fun _ => 0) 0 ref.label
  else
    (ByteMem.store (fun _ => 0) 0 ref.label).store 2
      [UInt8.ofNat ref.length]

/- `n` good fields have been read. -/
structure Reading
    (k : Nat)
    (image : List UInt8)
    (ref : VpdLayout)
    (n : Nat)
    (x : CsvLine) : Prop where
  collected : Collected k image x.st
  fieldNum : x.fieldNum = n
  numFields : x.numFields = n
  parseError : x.parseError = false
  skipped : x.skipped = false
  data : x.data = headData ref n
  dataLen : 2 ≤ n → x.st.dataLen = ref.length
  writeSize : 2 ≤ n → x.st.writeSize = 4 + ref.length
  mode : 3 ≤ n → x.st.mode = ref.mode

section Fields

variable {k n : Nat} {image : List UInt8}
variable {ref : VpdLayout} {x : CsvLine}
variable {field : List UInt8}

theorem Reading.start
    {st : CsvState}
    (hSt : Collected k image st) :
    Reading k image ref 0 (CsvLine.start st) :=
  ⟨hSt, rfl, rfl, rfl, rfl, rfl, fun h => by omega,
    fun h => by omega, fun h => by omega⟩

theorem Reading.table
    (hReading : Reading k image ref n x)
    (hRef : vpdRef102[k]? = some ref) :
    vpdRef102[x.st.vpdCheckLine]? = some ref := by
  rw [hReading.collected.vpdCheckLine]
  exact hRef

/- The separator behind a field with an error, or without. -/
theorem csvSeparator_bad
    {y : CsvLine}
    (hField : csvField x = some y)
    (hBad : y.parseError = true) :
    csvSeparator x = some y := by
  unfold csvSeparator
  rw [hField, Option.map_some, if_pos hBad]

theorem csvSeparator_good
    {y : CsvLine}
    (hField : csvField x = some y)
    (hGood : y.parseError = false) :
    csvSeparator x =
      some
        { y with
          token := []
          fieldNum := y.fieldNum + 1
          numFields := y.numFields + 1 } := by
  unfold csvSeparator
  rw [hField, Option.map_some, hGood]
  rfl

/- A key of another length ends the line. -/
theorem Reading.key_other
    (hReading : Reading k image ref 0 x)
    (hLen : field.length ≠ 2) :
    ∃ x',
      csvSeparator { x with token := field } = some x' ∧
      x'.st = x.st ∧ x'.parseError = false ∧
      x'.skipped = true ∧ x'.numFields = 1 := by
  have hField :
      csvField { x with token := field } =
        some { x with token := field, skipped := true } := by
    unfold csvField
    simp only [hReading.fieldNum]
    unfold keyField
    exact if_neg hLen
  refine ⟨_, csvSeparator_good hField hReading.parseError,
    rfl, hReading.parseError, rfl, ?_⟩
  show x.numFields + 1 = 1
  rw [hReading.numFields]

theorem Reading.key_outside
    (hReading : Reading k image ref 0 x)
    (hLen : field.length = 2)
    (hNone : vpdRef102[k]? = none) :
    csvSeparator { x with token := field } = none := by
  unfold csvSeparator csvField
  simp only [hReading.fieldNum]
  unfold keyField
  simp only [hLen, if_true, hReading.collected.vpdCheckLine,
    hNone]
  rfl

theorem Reading.key
    (hReading : Reading k image ref 0 x)
    (hRef : vpdRef102[k]? = some ref)
    (hLen : field.length = 2) :
    ∃ x',
      csvSeparator { x with token := field } = some x' ∧
      (field ≠ ref.label → x'.parseError = true) ∧
      (field = ref.label → Reading k image ref 1 x') := by
  have hC := hReading.collected
  have hField :
      csvField { x with token := field } =
        some
          { x with
            token := field
            data := ByteMem.store (fun _ => 0) 0 field
            st :=
              { x.st with
                getCrcValue :=
                  x.st.getCrcValue || field == crcToken }
            parseError := field != ref.label } := by
    unfold csvField
    simp only [hReading.fieldNum]
    unfold keyField storeData
    simp only [hLen, if_true, hReading.table hRef,
      Option.bind_some, hReading.data, headData,
      hReading.parseError, Bool.false_or]
    rfl
  by_cases hLabel : field = ref.label
  · have hGood : (field != ref.label) = false := by
      simpa using hLabel
    refine ⟨_, csvSeparator_good hField hGood,
      fun h => absurd hLabel h, fun _ => ?_⟩
    exact
      { collected :=
          ⟨hC.buffer, hC.crc32, hC.vpdCheckLine, hC.goodLines⟩
        fieldNum := congrArg (· + 1) hReading.fieldNum
        numFields := congrArg (· + 1) hReading.numFields
        parseError := hGood
        skipped := hReading.skipped
        data := by simp [headData, hLabel]
        dataLen := fun h => by omega
        writeSize := fun h => by omega
        mode := fun h => by omega }
  · have hBad : (field != ref.label) = true := by
      simpa using hLabel
    exact ⟨_, csvSeparator_bad hField hBad, fun _ => hBad,
      fun h => absurd h hLabel⟩

theorem Reading.length
    (hReading : Reading k image ref 1 x)
    (hRef : vpdRef102[k]? = some ref) :
    ∃ x',
      csvSeparator { x with token := field } = some x' ∧
      (scanInt field ≠ some (ref.length : Int) →
        x'.parseError = true) ∧
      (scanInt field = some (ref.length : Int) →
        Reading k image ref 2 x') := by
  have hC := hReading.collected
  have hUnfold :
      csvField { x with token := field } =
        lengthField { x with token := field } := by
    unfold csvField
    simp only [hReading.fieldNum]
  by_cases hScan : scanInt field = some (ref.length : Int)
  · have hField :
        csvField { x with token := field } =
          some
            { x with
              token := field
              data := headData ref 2
              st :=
                { x.st with
                  dataLen := ref.length
                  writeSize := 4 + ref.length }
              parseError := false } := by
      rw [hUnfold]
      unfold lengthField storeData
      simp only [hScan, hReading.table hRef,
        Option.bind_some, hReading.data, if_true]
      rfl
    refine ⟨_, csvSeparator_good hField rfl,
      fun h => absurd hScan h, fun _ => ?_⟩
    exact
      { collected :=
          ⟨hC.buffer, hC.crc32, hC.vpdCheckLine, hC.goodLines⟩
        fieldNum := congrArg (· + 1) hReading.fieldNum
        numFields := congrArg (· + 1) hReading.numFields
        parseError := rfl
        skipped := hReading.skipped
        data := rfl
        dataLen := fun _ => rfl
        writeSize := fun _ => rfl
        mode := fun h => by omega }
  · have hField :
        ∃ y, csvField { x with token := field } = some y ∧
          y.parseError = true := by
      rw [hUnfold]
      unfold lengthField
      cases hSome : scanInt field with
      | none =>
          simp only [hSome]
          exact ⟨_, rfl, rfl⟩
      | some dataLen =>
          have hNe : dataLen ≠ ref.length := by
            intro hEq
            exact hScan (hEq ▸ hSome)
          simp only [hSome, hReading.table hRef,
            Option.bind_some, hNe, if_false]
          exact ⟨_, rfl, rfl⟩
    rcases hField with ⟨y, hField, hBad⟩
    exact ⟨y, csvSeparator_bad hField hBad, fun _ => hBad,
      fun h => absurd h hScan⟩

theorem Reading.mode_field
    (hReading : Reading k image ref 2 x)
    (hRef : vpdRef102[k]? = some ref) :
    ∃ x',
      csvSeparator { x with token := field } = some x' ∧
      (field ≠ [ref.mode] → x'.parseError = true) ∧
      (field = [ref.mode] → Reading k image ref 3 x') := by
  have hC := hReading.collected
  have hUnfold :
      csvField { x with token := field } =
        modeField { x with token := field } := by
    unfold csvField
    simp only [hReading.fieldNum]
  by_cases hMode : field = [ref.mode]
  · have hField :
        csvField { x with token := field } =
          some
            { x with
              token := field
              st := { x.st with mode := ref.mode }
              parseError := false } := by
      rw [hUnfold, hMode]
      unfold modeField
      simp only [hReading.table hRef, Option.map_some,
        if_true]
    refine ⟨_, csvSeparator_good hField rfl,
      fun h => absurd hMode h, fun _ => ?_⟩
    exact
      { collected :=
          ⟨hC.buffer, hC.crc32, hC.vpdCheckLine, hC.goodLines⟩
        fieldNum := congrArg (· + 1) hReading.fieldNum
        numFields := congrArg (· + 1) hReading.numFields
        parseError := rfl
        skipped := hReading.skipped
        data := hReading.data
        dataLen := fun _ => hReading.dataLen (by omega)
        writeSize := fun _ => hReading.writeSize (by omega)
        mode := fun _ => rfl }
  · have hField :
        ∃ y, csvField { x with token := field } = some y ∧
          y.parseError = true := by
      rw [hUnfold]
      unfold modeField
      rcases field with _ | ⟨mode, _ | ⟨c, field⟩⟩
      · exact ⟨_, rfl, rfl⟩
      · have hNe : mode ≠ ref.mode := by
          intro hEq
          exact hMode (congrArg (fun m => [m]) hEq)
        simp only [hReading.table hRef, Option.map_some, hNe,
          if_false]
        exact ⟨_, rfl, rfl⟩
      · exact ⟨_, rfl, rfl⟩
    rcases hField with ⟨y, hField, hBad⟩
    exact ⟨y, csvSeparator_bad hField hBad, fun _ => hBad,
      fun h => absurd h hMode⟩

end Fields

------------------------------------------------------------
-- The Data of an Entry
------------------------------------------------------------

/- The digits end up in front of the end of the field. -/
theorem hexLoop_spec
    (digits : List UInt8)
    (d : Nat)
    (data : ByteMem)
    (hFits : (unhex digits).length ≤ d)
    (hShort : d ≤ 13) :
    ∃ dataLen,
      hexLoop digits d data =
        some (dataLen,
          data.store (4 + d - (unhex digits).length)
            (unhex digits).reverse) := by
  have hStore :
      ∀ (data : ByteMem) (b : UInt8),
        0 < d →
          storeData data (3 + (d : Int)) [b] =
            some (data.store (3 + d) [b]) := by
    intro data b hPos
    unfold storeData
    have hOff : (3 + (d : Int)).toNat = 3 + d := by omega
    rw [hOff, if_pos]
    simp only [List.length_singleton, maxLine]
    omega
  induction digits using unhex.induct generalizing d data with
  | case1 =>
      refine ⟨d, ?_⟩
      simp [hexLoop, unhex]
  | case2 l =>
      simp only [unhex, List.length_singleton] at hFits ⊢
      have hOff : 4 + d - 1 = 3 + d := by omega
      refine ⟨(d : Int) - 1, ?_⟩
      rw [hexLoop, hStore data _ (by omega), hOff]
      rfl
  | case3 l h digits ih =>
      simp only [unhex, List.length_cons] at hFits ⊢
      have hLess : ((d : Int) - 1) = ((d - 1 : Nat) : Int) := by
        omega
      rcases ih (d - 1)
        (data.store (3 + d) [a2h l ||| (a2h h <<< 4)])
        (by omega) (by omega)
        (by
          intro data b hPos
          unfold storeData
          have hOff :
              (3 + ((d - 1 : Nat) : Int)).toNat =
                3 + (d - 1) := by omega
          rw [hOff, if_pos]
          simp only [List.length_singleton, maxLine]
          omega) with ⟨dataLen, hLoop⟩
      refine ⟨dataLen, ?_⟩
      rw [hexLoop, hStore data _ (by omega),
        Option.bind_some, hLess, hLoop, List.reverse_cons]
      have hStart :
          4 + (d - 1) - (unhex digits).length =
            4 + d - ((unhex digits).length + 1) := by omega
      have hNext :
          3 + d =
            4 + d - ((unhex digits).length + 1) +
              (unhex digits).reverse.length := by
        rw [List.length_reverse]
        omega
      rw [hStart, ByteMem.store_comm data (by
          rw [← hNext]), hNext, ByteMem.store_store_append]

/- The first four bytes, and nothing behind them. -/
theorem headData_window
    {ref : VpdLayout}
    (hFixed : Fixed ref)
    (n : Nat) :
    (((headData ref 3).store 3 [ref.mode]).window 0 4 =
        entryHead ref) ∧
      ((headData ref 3).store 3 [ref.mode]).window 4 n =
        List.replicate n 0 := by
  have hData :
      (headData ref 3).store 3 [ref.mode] =
        ByteMem.store (fun _ => 0) 0 (entryHead ref) := by
    have hTwo : 0 + ref.label.length = 2 := by
      rw [hFixed.label]
    have hThree :
        0 + (ref.label ++ [UInt8.ofNat ref.length]).length =
          3 := by
      rw [List.length_append, hFixed.label]
      rfl
    have hHead :
        headData ref 3 =
          (ByteMem.store (fun _ => 0) 0 ref.label).store 2
            [UInt8.ofNat ref.length] := rfl
    rw [hHead, ← hTwo, ByteMem.store_store_append, ← hThree,
      ByteMem.store_store_append, List.append_assoc]
    rfl
  have hLen : (entryHead ref).length = 4 := by
    unfold entryHead
    rw [List.length_append, hFixed.label]
    rfl
  constructor
  · rw [hData]
    have hSame :=
      ByteMem.window_store_same (fun _ => 0) 0 (entryHead ref)
    rw [hLen] at hSame
    exact hSame
  · rw [hData, ByteMem.window_store_of_disjoint _ (by omega)]
    apply List.ext_getElem?
    intro i
    rw [ByteMem.window_getElem?, List.getElem?_replicate]

/- An entry with its data somewhere among zeros. -/
theorem entry_window
    {ref : VpdLayout}
    (hFixed : Fixed ref)
    (before : Nat)
    (bytes : List UInt8)
    (hFits : before + bytes.length ≤ ref.length) :
    (((headData ref 3).store 3 [ref.mode]).store
        (4 + before) bytes).window 0 (4 + ref.length) =
      entryHead ref ++
        (List.replicate before 0 ++ bytes ++
          List.replicate
            (ref.length - before - bytes.length) 0) := by
  have hZeros := fun n => (headData_window hFixed n).2
  have hHead := (headData_window hFixed 0).1
  generalize
    (headData ref 3).store 3 [ref.mode] = m at hZeros hHead ⊢
  have hSplit :
      4 + ref.length =
        4 + (before +
          (bytes.length +
            (ref.length - before - bytes.length))) := by
    omega
  have hBehind :
      m.window (4 + before + bytes.length)
          (ref.length - before - bytes.length) =
        List.replicate
          (ref.length - before - bytes.length) 0 := by
    have hDrop :=
      ByteMem.drop_window m 4 ref.length
        (before + bytes.length)
    rw [hZeros, List.drop_replicate] at hDrop
    rw [Nat.add_assoc, Nat.sub_sub, ← hDrop]
  rw [hSplit, ByteMem.window_add, ByteMem.window_add,
    ByteMem.window_add]
  simp only [Nat.zero_add]
  rw [ByteMem.window_store_of_disjoint _ (by omega),
    ByteMem.window_store_of_disjoint _ (by omega),
    ByteMem.window_store_same,
    ByteMem.window_store_of_disjoint _ (by omega),
    hHead, hZeros, hBehind, List.append_assoc]

section Data

variable {k : Nat} {image : List UInt8}
variable {ref : VpdLayout} {x : CsvLine}
variable {field : List UInt8}

/- Four good fields have been read; more may follow. -/
structure Complete
    (k : Nat)
    (image bytes : List UInt8)
    (y : CsvLine) : Prop where
  buffer : y.st.buffer = image
  crc32 : y.st.crc32 = genwqeCrc32Gen image crc32InitSeed
  vpdCheckLine : y.st.vpdCheckLine = k
  goodLines : y.st.goodLines = k + 1
  writeSize : y.st.writeSize = bytes.length
  data : y.data.window 0 bytes.length = bytes
  parseError : y.parseError = false
  skipped : y.skipped = false
  fieldNum : 4 ≤ y.fieldNum
  numFields : 4 ≤ y.numFields

/- The state that the conversion of digits works on. -/
theorem Reading.dataField_eq
    (hReading : Reading k image ref 3 x) :
    csvField { x with token := field } =
      dataField { x with token := field } := by
  unfold csvField
  simp only [hReading.fieldNum]

theorem storeData_mode
    (data : ByteMem) (mode : UInt8) :
    storeData data 3 [mode] = some (data.store 3 [mode]) :=
  rfl

/- The length of an entry with its data. -/
theorem length_entry
    (hFixed : Fixed ref)
    (hFits : FieldFits k ref field) :
    (entryHead ref ++ payload ref field).length =
      4 + ref.length := by
  unfold entryHead
  rw [List.length_append, List.length_append,
    hFixed.label, length_payload hFits]
  rfl

/- Text goes to the start of the field. -/
theorem Reading.text
    (hReading : Reading k image ref 3 x)
    (hFixed : Fixed ref)
    (hMode : ref.mode = modeA) :
    (FieldFits k ref field →
      ∃ x',
        csvSeparator { x with token := field } = some x' ∧
        Complete k image (entryHead ref ++ payload ref field)
          x') ∧
    (¬ FieldFits k ref field →
      ∃ x',
        csvSeparator { x with token := field } = some x' ∧
        x'.parseError = true) := by
  have hC := hReading.collected
  have hIff :
      FieldFits k ref field ↔ field.length ≤ ref.length := by
    unfold FieldFits
    rw [if_pos hMode]
  have hMode' : x.st.mode = ref.mode :=
    hReading.mode (by omega)
  have hText : (x.st.mode = modeA) = True := by
    rw [hMode', hMode]
    exact eq_self modeA
  have hLen := hReading.dataLen (by omega)
  constructor
  · intro hFits
    have hShort := hIff.mp hFits
    have hCast :
        ((field.length : Int) ≤ x.st.dataLen) = True := by
      rw [hLen]
      exact eq_true (by omega)
    have hRoom := hFixed.short
    have hField :
        csvField { x with token := field } =
          some
            { x with
              token := field
              data :=
                (x.data.store 3 [x.st.mode]).store (4 + 0)
                  field
              st :=
                { x.st with goodLines := x.st.goodLines + 1 }
              parseError := false } := by
      have hFour :
          ∀ data : ByteMem,
            storeData data 4 field =
              some (data.store (4 + 0) field) := by
        intro data
        unfold storeData
        rw [if_pos]
        · rfl
        · simp only [maxLine]
          omega
      rw [hReading.dataField_eq]
      unfold dataField
      simp only [storeData_mode, Option.bind_some, hText,
        if_true, hCast, hFour]
      rfl
    refine ⟨_, csvSeparator_good hField rfl, ?_⟩
    have hWindow := entry_window hFixed 0 field (by omega)
    have hPayload :
        payload ref field =
          List.replicate 0 0 ++ field ++
            List.replicate (ref.length - 0 - field.length)
              0 := by
      unfold payload filling
      rw [if_pos hMode]
      rfl
    exact
      { buffer := hC.buffer
        crc32 := hC.crc32
        vpdCheckLine := hC.vpdCheckLine
        goodLines := congrArg (· + 1) hC.goodLines
        writeSize := by
          rw [length_entry hFixed hFits]
          exact hReading.writeSize (by omega)
        data := by
          show
            ByteMem.window
              ((x.data.store 3 [x.st.mode]).store (4 + 0)
                field) 0 _ = _
          rw [length_entry hFixed hFits, hPayload,
            hReading.data, hMode']
          exact hWindow
        parseError := rfl
        skipped := hReading.skipped
        fieldNum := by
          show 4 ≤ x.fieldNum + 1
          rw [hReading.fieldNum]
        numFields := by
          show 4 ≤ x.numFields + 1
          rw [hReading.numFields] }
  · intro hFits
    have hCast :
        ((field.length : Int) ≤ x.st.dataLen) = False := by
      have hLong : ¬ field.length ≤ ref.length :=
        fun h => hFits (hIff.mpr h)
      rw [hLen]
      exact eq_false (by omega)
    have hField :
        ∃ y, csvField { x with token := field } = some y ∧
          y.parseError = true := by
      rw [hReading.dataField_eq]
      unfold dataField
      simp only [storeData_mode, Option.bind_some, hText,
        if_true, hCast, if_false, Option.map_some]
      exact ⟨_, rfl, rfl⟩
    rcases hField with ⟨y, hField, hBad⟩
    exact ⟨y, csvSeparator_bad hField hBad, hBad⟩

/- The checks concern the error and the checksum only. -/
theorem hexChecks_eq (x : CsvLine) :
    ∃ getCrcValue csvCrc,
      hexChecks x =
        { x with
          parseError :=
            decide (x.st.vpdCheckLine = 0 ∧
              swapVersion (x.data 4) (x.data 5) ≠ vpdVersion)
          st :=
            { x.st with
              getCrcValue := getCrcValue
              csvCrc := csvCrc } } := by
  by_cases hGet : x.st.getCrcValue = true
  · exact ⟨false, some (readBe32 x.data 4), if_pos hGet⟩
  · exact ⟨x.st.getCrcValue, x.st.csvCrc, if_neg hGet⟩

/- A byte of the data of an entry. -/
theorem data_of_window
    {data : ByteMem}
    {bytes : List UInt8}
    (hFixed : Fixed ref)
    (hWindow :
      data.window 0 (4 + ref.length) = entryHead ref ++ bytes)
    {i : Nat}
    (hi : i < ref.length) : data (4 + i) = bytes.getD i 0 := by
  have hHead : (entryHead ref).length = 4 := by
    unfold entryHead
    rw [List.length_append, hFixed.label]
    rfl
  have hGet :
      (data.window 0 (4 + ref.length))[4 + i]? =
        (entryHead ref ++ bytes)[4 + i]? := by
    rw [hWindow]
  rw [ByteMem.window_getElem?, if_pos (by omega),
    List.getElem?_append_right (by omega), hHead,
    Nat.add_sub_cancel_left, Nat.zero_add] at hGet
  rw [List.getD_eq_getElem?_getD, ← hGet]
  rfl

/- Digits go to the end of the field. -/
theorem Reading.hex
    (hReading : Reading k image ref 3 x)
    (hFixed : Fixed ref)
    (hMode : ref.mode = modeX) :
    (FieldFits k ref field →
      ∃ x',
        csvSeparator { x with token := field } = some x' ∧
        Complete k image (entryHead ref ++ payload ref field)
          x') ∧
    (¬ FieldFits k ref field →
      ∃ x',
        csvSeparator { x with token := field } = some x' ∧
        x'.parseError = true) := by
  have hC := hReading.collected
  have hNotText : ref.mode ≠ modeA := by
    rw [hMode]
    decide
  have hIff :
      FieldFits k ref field ↔
        field.length ≤ 2 * ref.length ∧
          GoodVersion k (payload ref field) := by
    unfold FieldFits
    rw [if_neg hNotText]
  have hMode' : x.st.mode = ref.mode :=
    hReading.mode (by omega)
  have hText : (x.st.mode = modeA) = False := by
    rw [hMode']
    exact eq_false hNotText
  have hHex : (x.st.mode = modeX) = True := by
    rw [hMode', hMode]
    exact eq_self modeX
  have hLen := hReading.dataLen (by omega)
  by_cases hShort : field.length ≤ 2 * ref.length
  · have hCast :
        ((field.length : Int) ≤ 2 * x.st.dataLen) = True := by
      rw [hLen]
      exact eq_true (by omega)
    have hDigits :
        (unhex field.reverse).length ≤ ref.length := by
      rw [length_unhex, List.length_reverse]
      omega
    rcases hexLoop_spec field.reverse ref.length
      ((headData ref 3).store 3 [ref.mode]) hDigits
      hFixed.short with ⟨dataLen, hLoop⟩
    have hStart :
        4 + ref.length - (unhex field.reverse).length =
          4 + (ref.length - (unhex field.reverse).length) := by
      omega
    rw [hStart] at hLoop
    generalize hData :
      ((headData ref 3).store 3 [ref.mode]).store
        (4 + (ref.length - (unhex field.reverse).length))
        (unhex field.reverse).reverse = data at hLoop
    have hPayload :
        payload ref field =
          List.replicate
              (ref.length - (unhex field.reverse).length) 0 ++
            (unhex field.reverse).reverse := by
      unfold payload filling
      rw [if_neg hNotText]
    have hWindow :
        data.window 0 (4 + ref.length) =
          entryHead ref ++ payload ref field := by
      have hEntry :=
        entry_window hFixed
          (ref.length - (unhex field.reverse).length)
          (unhex field.reverse).reverse (by
            rw [List.length_reverse]
            omega)
      have hNone :
          ref.length -
                (ref.length - (unhex field.reverse).length) -
              (unhex field.reverse).reverse.length = 0 := by
        rw [List.length_reverse]
        omega
      rw [hData, hNone, List.replicate_zero,
        List.append_nil] at hEntry
      rw [hEntry, hPayload]
    have hVersion :
        decide (x.st.vpdCheckLine = 0 ∧
            swapVersion (data 4) (data 5) ≠ vpdVersion) =
          decide (¬ GoodVersion k (payload ref field)) := by
      have hZero := data_of_window hFixed hWindow
        (Nat.lt_of_lt_of_le (by decide : 0 < 2) hFixed.long)
      have hOne := data_of_window hFixed hWindow
        (Nat.lt_of_lt_of_le (by decide : 1 < 2) hFixed.long)
      rw [Nat.add_zero] at hZero
      rw [hZero, hOne, hC.vpdCheckLine]
      unfold GoodVersion
      simp only [Classical.not_imp, ne_eq]
    have hField :
        ∃ getCrcValue csvCrc,
          csvField { x with token := field } =
            some
              (if GoodVersion k (payload ref field) then
                { x with
                  token := field
                  data := data
                  parseError := false
                  st :=
                    { x.st with
                      dataLen := dataLen
                      getCrcValue := getCrcValue
                      csvCrc := csvCrc
                      goodLines := x.st.goodLines + 1 } }
              else
                { x with
                  token := field
                  data := data
                  parseError := true
                  st :=
                    { x.st with
                      dataLen := dataLen
                      getCrcValue := getCrcValue
                      csvCrc := csvCrc } }) := by
      have hLoop' :
          hexLoop field.reverse x.st.dataLen
              (x.data.store 3 [x.st.mode]) =
            some (dataLen, data) := by
        rw [hLen, hReading.data, hMode']
        exact hLoop
      rw [hReading.dataField_eq]
      unfold dataField
      simp only [storeData_mode, Option.bind_some, hText,
        if_false, hHex, if_true, hCast, hLoop',
        Option.map_some]
      rcases hexChecks_eq
        { x with
          token := field
          data := data
          parseError := true
          st := { x.st with dataLen := dataLen } } with
        ⟨getCrcValue, csvCrc, hChecks⟩
      refine ⟨getCrcValue, csvCrc, ?_⟩
      rw [hChecks]
      simp only [hVersion]
      by_cases hGood : GoodVersion k (payload ref field)
      · simp [hGood]
      · simp [hGood]
    rcases hField with ⟨getCrcValue, csvCrc, hField⟩
    constructor
    · intro hFits
      rw [if_pos (hIff.mp hFits).2] at hField
      refine ⟨_, csvSeparator_good hField rfl, ?_⟩
      exact
        { buffer := hC.buffer
          crc32 := hC.crc32
          vpdCheckLine := hC.vpdCheckLine
          goodLines := congrArg (· + 1) hC.goodLines
          writeSize := by
            rw [length_entry hFixed hFits]
            exact hReading.writeSize (by omega)
          data := by
            rw [length_entry hFixed hFits]
            exact hWindow
          parseError := rfl
          skipped := hReading.skipped
          fieldNum := by
            show 4 ≤ x.fieldNum + 1
            rw [hReading.fieldNum]
          numFields := by
            show 4 ≤ x.numFields + 1
            rw [hReading.numFields] }
    · intro hFits
      rw [if_neg (fun h => hFits (hIff.mpr ⟨hShort, h⟩))]
        at hField
      exact ⟨_, csvSeparator_bad hField rfl, rfl⟩
  · have hCast :
        ((field.length : Int) ≤ 2 * x.st.dataLen) = False := by
      rw [hLen]
      exact eq_false (by omega)
    have hField :
        ∃ y, csvField { x with token := field } = some y ∧
          y.parseError = true := by
      rw [hReading.dataField_eq]
      unfold dataField
      simp only [storeData_mode, Option.bind_some, hText,
        if_false, hHex, if_true, hCast, Option.map_some]
      exact ⟨_, rfl, rfl⟩
    rcases hField with ⟨y, hField, hBad⟩
    refine ⟨fun h => absurd (hIff.mp h).1 hShort,
      fun _ => ?_⟩
    exact ⟨y, csvSeparator_bad hField hBad, hBad⟩

/- What is behind the data is not looked at. -/
theorem Complete.rest
    {bytes : List UInt8}
    (hComplete : Complete k image bytes x)
    (fields : List (List UInt8)) :
    ∃ x',
      csvFields x fields = some x' ∧
        Complete k image bytes x' := by
  induction fields generalizing x with
  | nil => exact ⟨x, rfl, hComplete⟩
  | cons field fields ih =>
      have hField :
          csvField { x with token := field } =
            some { x with token := field } := by
        have hFour := hComplete.fieldNum
        unfold csvField
        simp only
        split <;> first | omega | rfl
      have hSep := csvSeparator_good hField hComplete.parseError
      have hNext :
          Complete k image bytes
            { x with
              token := []
              fieldNum := x.fieldNum + 1
              numFields := x.numFields + 1 } :=
        { buffer := hComplete.buffer
          crc32 := hComplete.crc32
          vpdCheckLine := hComplete.vpdCheckLine
          goodLines := hComplete.goodLines
          writeSize := hComplete.writeSize
          data := hComplete.data
          parseError := hComplete.parseError
          skipped := hComplete.skipped
          fieldNum := Nat.le_succ_of_le hComplete.fieldNum
          numFields := Nat.le_succ_of_le hComplete.numFields }
      rcases ih hNext with ⟨x', hRest, hLast⟩
      refine ⟨x', ?_, hLast⟩
      rw [csvFields, hSep]
      simp only [hComplete.parseError, hComplete.skipped,
        Bool.or_self, Bool.false_eq_true, if_false]
      have hParse := hComplete.parseError
      have hSkip := hComplete.skipped
      rw [hParse, hSkip] at hRest
      exact hRest

end Data

------------------------------------------------------------
-- A Line
------------------------------------------------------------

section Lines

variable {k : Nat} {image : List UInt8}
variable {st : CsvState}

/- What the fields of a line leave. -/
inductive FieldsResult (k : Nat) (image : List UInt8) :
    Verdict → Option CsvLine → Prop
  | outside : FieldsResult k image .outside none
  | refused {x : CsvLine} :
      x.parseError = true →
      FieldsResult k image .refused (some x)
  | ignored {x : CsvLine} :
      Collected k image x.st →
      x.parseError = false →
      x.numFields < 4 →
      FieldsResult k image .ignored (some x)
  | entry {x : CsvLine} {bytes : List UInt8} :
      Complete k image bytes x →
      FieldsResult k image (.entry bytes) (some x)

/- A good field is followed by the next one. -/
theorem csvFields_good
    {x x' : CsvLine}
    {field : List UInt8}
    (hSep : csvSeparator { x with token := field } = some x')
    (hGood : x'.parseError = false)
    (hGoOn : x'.skipped = false)
    (fields : List (List UInt8)) :
    csvFields x (field :: fields) = csvFields x' fields := by
  rw [csvFields, hSep]
  simp only [hGood, hGoOn, Bool.or_self, Bool.false_eq_true,
    if_false]

/- Behind an error, or a jump to its end, the line is left. -/
theorem csvFields_stop
    {x x' : CsvLine}
    {field : List UInt8}
    (hSep : csvSeparator { x with token := field } = some x')
    (hStop : x'.parseError = true ∨ x'.skipped = true)
    (fields : List (List UInt8)) :
    csvFields x (field :: fields) = some x' := by
  rw [csvFields, hSep]
  rcases hStop with hStop | hStop
  · simp [hStop]
  · simp [hStop]

theorem Reading.ignored
    {ref : VpdLayout}
    {n : Nat}
    {x : CsvLine}
    (hReading : Reading k image ref n x)
    (hFew : n < 4) :
    FieldsResult k image .ignored (some x) :=
  .ignored hReading.collected hReading.parseError
    (by rw [hReading.numFields]; exact hFew)

/- The data field, whatever its mode. -/
theorem Reading.data_field
    {ref : VpdLayout}
    {x : CsvLine}
    {data : List UInt8}
    (hReading : Reading k image ref 3 x)
    (hFixed : Fixed ref)
    (fields : List (List UInt8)) :
    FieldsResult k image
      (if FieldFits k ref data then
        .entry (entryHead ref ++ payload ref data)
      else .refused)
      (csvFields x (data :: fields)) := by
  have hBoth :
      (FieldFits k ref data →
        ∃ x',
          csvSeparator { x with token := data } = some x' ∧
          Complete k image
            (entryHead ref ++ payload ref data) x') ∧
      (¬ FieldFits k ref data →
        ∃ x',
          csvSeparator { x with token := data } = some x' ∧
          x'.parseError = true) := by
    rcases hFixed.mode with hMode | hMode
    · exact hReading.text hFixed hMode
    · exact hReading.hex hFixed hMode
  by_cases hFits : FieldFits k ref data
  · rcases hBoth.1 hFits with ⟨x', hSep, hComplete⟩
    rw [if_pos hFits,
      csvFields_good hSep hComplete.parseError
        hComplete.skipped]
    rcases hComplete.rest fields with ⟨x'', hRest, hLast⟩
    rw [hRest]
    exact .entry hLast
  · rcases hBoth.2 hFits with ⟨x', hSep, hBad⟩
    rw [if_neg hFits, csvFields_stop hSep (Or.inl hBad)]
    exact .refused hBad

theorem csvFields_result
    (hSt : Collected k image st)
    (fields : List (List UInt8)) :
    FieldsResult k image (fieldsVerdict k fields)
      (csvFields (CsvLine.start st) fields) := by
  rcases fields with _ | ⟨key, fields⟩
  · exact .ignored hSt rfl (by decide : 0 < 4)
  have hStart :
      ∀ ref, Reading k image ref 0 (CsvLine.start st) :=
    fun _ => .start hSt
  unfold fieldsVerdict
  simp only
  by_cases hKey : key.length ≠ 2
  · rw [if_pos hKey]
    rcases (hStart ⟨[], 0, 0⟩).key_other hKey with
      ⟨x', hSep, hSame, hGood, hSkip, hOne⟩
    rw [csvFields_stop hSep (Or.inr hSkip)]
    refine .ignored ?_ hGood ?_
    · rw [hSame]
      exact hSt
    · rw [hOne]
      decide
  rw [if_neg hKey]
  have hTwo : key.length = 2 := not_not.mp hKey
  cases hRef : vpdRef102[k]? with
  | none =>
      rw [csvFields,
        (hStart ⟨[], 0, 0⟩).key_outside hTwo hRef]
      exact .outside
  | some ref =>
      have hFixed := fixed_of_get hRef
      rcases (hStart ref).key hRef hTwo with
        ⟨x₁, hSep₁, hBad₁, hGood₁⟩
      simp only
      by_cases hLabel : key ≠ ref.label
      · rw [if_pos hLabel,
          csvFields_stop hSep₁ (Or.inl (hBad₁ hLabel))]
        exact .refused (hBad₁ hLabel)
      rw [if_neg hLabel]
      have h₁ := hGood₁ (not_not.mp hLabel)
      rw [csvFields_good hSep₁ h₁.parseError h₁.skipped]
      rcases fields with _ | ⟨length, fields⟩
      · exact h₁.ignored (by decide)
      simp only
      rcases @Reading.length _ _ _ _ length h₁ hRef with
        ⟨x₂, hSep₂, hBad₂, hGood₂⟩
      by_cases hLength :
          scanInt length ≠ some (ref.length : Int)
      · rw [if_pos hLength,
          csvFields_stop hSep₂ (Or.inl (hBad₂ hLength))]
        exact .refused (hBad₂ hLength)
      rw [if_neg hLength]
      have h₂ := hGood₂ (not_not.mp hLength)
      rw [csvFields_good hSep₂ h₂.parseError h₂.skipped]
      rcases fields with _ | ⟨mode, fields⟩
      · exact h₂.ignored (by decide)
      simp only
      rcases @Reading.mode_field _ _ _ _ mode h₂ hRef with
        ⟨x₃, hSep₃, hBad₃, hGood₃⟩
      by_cases hMode : mode ≠ [ref.mode]
      · rw [if_pos hMode,
          csvFields_stop hSep₃ (Or.inl (hBad₃ hMode))]
        exact .refused (hBad₃ hMode)
      rw [if_neg hMode]
      have h₃ := hGood₃ (not_not.mp hMode)
      rw [csvFields_good hSep₃ h₃.parseError h₃.skipped]
      rcases fields with _ | ⟨data, fields⟩
      · exact h₃.ignored (by decide)
      · exact h₃.data_field hFixed fields

/- An entry has at most 17 bytes. -/
theorem Complete.step
    {x : CsvLine}
    {bytes : List UInt8}
    (hComplete : Complete k image bytes x)
    (hShort : bytes.length ≤ 17)
    (hRoom : image.length + 17 ≤ vpdBufferSize) :
    LineResult k image (.entry bytes)
      (if x.parseError then some (false, x.st)
      else if x.numFields < 4 then some (true, x.st)
      else if
          x.st.writeSize ≤ maxLine ∧
            x.st.buffer.length + x.st.writeSize ≤
              vpdBufferSize then
        let bytes := x.data.window 0 x.st.writeSize
        some (true,
          { x.st with
            buffer := x.st.buffer ++ bytes
            crc32 := genwqeCrc32Gen bytes x.st.crc32
            vpdCheckLine := x.st.vpdCheckLine + 1 })
      else none) := by
  have hFour := hComplete.numFields
  have hFits :
      x.st.writeSize ≤ maxLine ∧
        x.st.buffer.length + x.st.writeSize ≤
          vpdBufferSize := by
    rw [hComplete.writeSize, hComplete.buffer]
    unfold maxLine
    omega
  rw [hComplete.parseError, if_neg Bool.false_ne_true,
    if_neg (by omega), if_pos hFits]
  refine .entry ⟨?_, ?_, ?_, hComplete.goodLines⟩
  · simp only [hComplete.writeSize, hComplete.data,
      hComplete.buffer]
  · simp only [hComplete.writeSize, hComplete.data,
      hComplete.crc32, genwqeCrc32Gen_append]
  · exact congrArg (· + 1) hComplete.vpdCheckLine

/- An entry that is found fits its place in the table. -/
theorem fieldsVerdict_entry
    {fields : List (List UInt8)}
    {bytes : List UInt8}
    (hEntry : fieldsVerdict k fields = .entry bytes) :
    ∃ ref field,
      vpdRef102[k]? = some ref ∧ FieldFits k ref field ∧
        bytes = entryHead ref ++ payload ref field := by
  unfold fieldsVerdict at hEntry
  split at hEntry
  · cases hEntry
  split at hEntry
  · cases hEntry
  split at hEntry
  · cases hEntry
  rename_i ref hRef
  split at hEntry
  · cases hEntry
  split at hEntry
  · cases hEntry
  split at hEntry
  · cases hEntry
  split at hEntry
  · cases hEntry
  split at hEntry
  · cases hEntry
  split at hEntry
  · cases hEntry
  split at hEntry
  · rename_i hFits
    cases hEntry
    exact ⟨ref, _, hRef, hFits, rfl⟩
  · cases hEntry

/- A line does to the image what its verdict says. -/
theorem csvLine_result
    {line : List UInt8}
    (hSt : Collected k image st)
    (hLine : line.length < maxLine)
    (hRoom : image.length + 17 ≤ vpdBufferSize) :
    LineResult k image (lineVerdict k line)
      (csvLine st line) := by
  have hCut : (cString line).length ≤ line.length :=
    (List.takeWhile_prefix _).length_le
  unfold lineVerdict csvLine
  by_cases hShort : (cString line).length < 2
  · rw [if_pos hShort]
    simp only [hShort, if_true]
    exact .outside
  rw [if_neg hShort]
  simp only [hShort, if_false]
  generalize
    hText :
      (cString line).take ((cString line).length - 2) = text
  have hTextLen : text.length < maxLine := by
    rw [← hText, List.length_take]
    omega
  have hChars :
      csvChars (CsvLine.start st) text =
        csvFields (CsvLine.start st) (fieldsOf text) := by
    rw [csvChars_eq _ _ (by
      show 0 + text.length < maxLine
      omega)]
    cases fieldsOf text <;> rfl
  rw [hChars]
  have hResult := csvFields_result hSt (fieldsOf text)
  generalize hVerdict : fieldsVerdict k (fieldsOf text) =
    verdict at hResult ⊢
  generalize csvFields (CsvLine.start st) (fieldsOf text) =
    result at hResult ⊢
  cases hResult with
  | outside => exact .outside
  | @refused x hBad =>
      rw [Option.bind_some, if_pos hBad]
      exact .refused
  | @ignored x hCollected hGood hFew =>
      rw [Option.bind_some, hGood,
        if_neg Bool.false_ne_true, if_pos hFew]
      exact .ignored hCollected
  | @entry x bytes hComplete =>
      rcases fieldsVerdict_entry hVerdict with
        ⟨ref, field, hRef, hFits, rfl⟩
      have hLen := length_entry (fixed_of_get hRef) hFits
      have hMost := (fixed_of_get hRef).short
      exact hComplete.step (by omega) hRoom

end Lines

end Vpd
