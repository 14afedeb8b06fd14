import Mathlib.Data.List.TakeWhile
import GenWqe.Vpd.Files

/-
  From a VPD image to text and back: the text that
  `bin_2_csv` writes, the image that `csv_2_bin` makes of it,
  and the images for which that is the same one.

  Key definitions include:
    * `imageOf`, `linesOf`
    * `readBack`
    * `PlainField`, `fieldAt`

  Main results:
    * `bin2Csv_true`
    * `fgetsAll_flatten`
    * `csv2Bin_linesOf`
    * `roundTrip_iff`
-/

------------------------------------------------------------
-- What Is Written
------------------------------------------------------------

namespace Vpd

/- The image that entries with their data make up. -/
def imageOf (es : List (VpdLayout × List UInt8)) :
    List UInt8 :=
  es.flatMap fun e => entryHead e.1 ++ e.2

/- A line of the text. -/
def lineOf (e : VpdLayout × List UInt8) : List UInt8 :=
  lineHead e.1 ++ lineData e.1.mode e.2 ++ lineEnd

def linesOf (es : List (VpdLayout × List UInt8)) :
    List (List UInt8) :=
  es.map lineOf

/- The data are as long as the table says. -/
def Sized (es : List (VpdLayout × List UInt8)) : Prop :=
  ∀ e ∈ es, e.2.length = e.1.length

theorem cString_label
    {ref : VpdLayout}
    {l₀ l₁ : UInt8}
    (hMem : ref ∈ vpdRef102)
    (hLabel : cString [l₀, l₁] = ref.label) :
    [l₀, l₁] = ref.label := by
  have hPrefix : cString [l₀, l₁] <+: [l₀, l₁] :=
    List.takeWhile_prefix _
  rw [hLabel] at hPrefix
  apply (hPrefix.eq_of_length _).symm
  rw [(fixed_of_mem hMem).label]
  rfl

/- A good round reads an entry and writes a line. -/
theorem binLine_true
    {ref : VpdLayout}
    {n : Nat}
    {op buffer op' buffer' : List UInt8}
    (hMem : ref ∈ vpdRef102)
    (hLine :
      binLine ref n op buffer = some (true, op', buffer')) :
    ∃ data,
      buffer = entryHead ref ++ data ++ buffer' ∧
      op' = op ++ lineOf (ref, data) ∧
      data.length = ref.length ∧
      (ref.mode = modeX → GoodVersion n data) := by
  unfold binLine at hLine
  split at hLine
  · rename_i l₀ l₁ length mode rest
    split at hLine
    · cases hLine
    rename_i hLabel
    split at hLine
    · cases hLine
    rename_i hLength
    split at hLine
    · cases hLine
    rename_i hMode
    simp only at hLine
    split at hLine
    · cases hLine
    split at hLine
    · cases hLine
    rename_i hVersion
    split at hLine
    · cases hLine
    rename_i hShort
    cases hLine
    refine ⟨rest.take ref.length, ?_, ?_, ?_, ?_⟩
    · have hTwo := cString_label hMem (not_not.mp hLabel)
      have hLen : length = UInt8.ofNat ref.length := by
        rw [← not_not.mp hLength]
        exact UInt8.ofNat_toNat.symm
      unfold entryHead
      rw [← hTwo, ← hLen, ← not_not.mp hMode,
        List.append_assoc, List.take_append_drop]
      rfl
    · unfold lineOf
      simp only [not_not.mp hMode, List.append_assoc]
    · rw [List.length_take]
      omega
    · intro hHex hZero
      by_contra hOther
      apply hVersion
      refine ⟨(not_not.mp hMode).trans hHex, hZero, ?_⟩
      have hTwo := (fixed_of_mem hMem).long
      have hFirst :
          (rest.take ref.length).getD 0 0 = rest.getD 0 0 := by
        rw [List.getD_eq_getElem?_getD,
          List.getD_eq_getElem?_getD, List.getElem?_take,
          if_pos (by omega)]
      have hSecond :
          (rest.take ref.length).getD 1 0 = rest.getD 1 0 := by
        rw [List.getD_eq_getElem?_getD,
          List.getD_eq_getElem?_getD, List.getElem?_take,
          if_pos (by omega)]
      rw [hFirst, hSecond] at hOther
      exact hOther
  · cases hLine

theorem bin2CsvLoop_true
    {refs : List VpdLayout}
    {n : Nat}
    {op buffer text : List UInt8}
    (hMem : ∀ ref ∈ refs, ref ∈ vpdRef102)
    (hCount : n + refs.length = linesInVpd)
    (hLoop :
      bin2CsvLoop refs n buffer.length op buffer =
        some (true, text)) :
    ∃ es,
      es.map Prod.fst = refs ∧ Sized es ∧
      buffer = imageOf es ∧
      text = op ++ (linesOf es).flatten ∧
      ∀ e, es[0]? = some e → e.1.mode = modeX →
        GoodVersion n e.2 := by
  induction refs generalizing n op buffer with
  | nil =>
      unfold bin2CsvLoop at hLoop
      split at hLoop
      · rename_i hNone
        have hText : op = text :=
          congrArg Prod.snd (Option.some.inj hLoop)
        have hEmpty : buffer = [] := by
          apply List.eq_nil_of_length_eq_zero
          omega
        refine ⟨[], rfl, nofun, hEmpty, ?_, nofun⟩
        rw [← hText]
        simp [linesOf]
      · cases hLoop
  | cons ref refs ih =>
      unfold bin2CsvLoop at hLoop
      split at hLoop
      · rw [List.length_cons] at hCount
        have hFew :
            decide (linesInVpd = n) = false :=
          decide_eq_false (by omega)
        rw [hFew] at hLoop
        cases hLoop
      · simp only at hLoop
        split at hLoop
        · cases hLoop
        · cases hLoop
        · rename_i op' buffer' hLine
          rcases binLine_true (hMem ref List.mem_cons_self)
            hLine with
            ⟨data, hBuffer, hOp, hLen, hVersion⟩
          have hHead : (entryHead ref).length = 4 := by
            unfold entryHead
            rw [List.length_append,
              (fixed_of_mem
                (hMem ref List.mem_cons_self)).label]
            rfl
          have hRest :
              (buffer.length : Int) - (4 + ref.length) =
                buffer'.length := by
            rw [hBuffer, List.length_append,
              List.length_append, hHead, hLen]
            omega
          rw [hRest] at hLoop
          rw [List.length_cons] at hCount
          rcases ih
            (fun r h => hMem r (List.mem_cons_of_mem _ h))
            (by omega) hLoop with
            ⟨es, hRefs, hSized, hImage, hText, _⟩
          refine ⟨(ref, data) :: es, ?_, ?_, ?_, ?_, ?_⟩
          · rw [List.map_cons, hRefs]
          · intro e hE
            rcases List.mem_cons.mp hE with rfl | hE
            · exact hLen
            · exact hSized e hE
          · unfold imageOf at *
            rw [List.flatMap_cons, ← hImage, hBuffer]
          · rw [hText, hOp]
            unfold linesOf
            rw [List.map_cons, List.flatten_cons,
              List.append_assoc]
          · intro e hE
            cases hE
            exact hVersion

/- An image that is printed consists of the ten entries. -/
theorem bin2Csv_true
    {image text : List UInt8}
    (hPrint :
      bin2Csv image.length image = some (true, text)) :
    ∃ es,
      es.map Prod.fst = vpdRef102 ∧ Sized es ∧
      image = imageOf es ∧
      text = (linesOf es).flatten ∧
      ∀ e, es[0]? = some e → e.1.mode = modeX →
        GoodVersion 0 e.2 := by
  rcases bin2CsvLoop_true (fun _ h => h) (Nat.zero_add _)
    hPrint with ⟨es, hRefs, hSized, hImage, hText, hVersion⟩
  exact ⟨es, hRefs, hSized, hImage, hText, hVersion⟩

theorem length_entryHead
    {ref : VpdLayout}
    (hMem : ref ∈ vpdRef102) :
    (entryHead ref).length = 4 := by
  unfold entryHead
  rw [List.length_append, (fixed_of_mem hMem).label]
  rfl

/- The labels of the table are strings of two characters. -/
theorem label_facts
    {ref : VpdLayout}
    (hMem : ref ∈ vpdRef102) :
    ∃ l₀ l₁,
      ref.label = [l₀, l₁] ∧ cString [l₀, l₁] = ref.label ∧
        (UInt8.ofNat ref.length).toNat = ref.length := by
  have hAll :
      ∀ ref ∈ vpdRef102,
        ref.label = [ref.label.getD 0 0, ref.label.getD 1 0] ∧
          cString [ref.label.getD 0 0, ref.label.getD 1 0] =
            ref.label ∧
          (UInt8.ofNat ref.length).toNat = ref.length := by
    decide
  exact ⟨_, _, hAll ref hMem⟩

theorem binLine_entry
    {ref : VpdLayout}
    {n : Nat}
    {data : List UInt8}
    (op rest : List UInt8)
    (hMem : ref ∈ vpdRef102)
    (hLen : data.length = ref.length)
    (hVersion : ref.mode = modeX → GoodVersion n data) :
    binLine ref n op (entryHead ref ++ data ++ rest) =
      some (true, op ++ lineOf (ref, data), rest) := by
  rcases label_facts hMem with ⟨l₀, l₁, hLabel, hString, hByte⟩
  have hTwo := (fixed_of_mem hMem).long
  have hFirst :
      ∀ i, i < 2 →
        (data ++ rest).getD i 0 = data.getD i 0 := by
    intro i hi
    rw [List.getD_eq_getElem?_getD,
      List.getD_eq_getElem?_getD,
      List.getElem?_append_left (by omega)]
  have hBuffer :
      entryHead ref ++ data ++ rest =
        l₀ :: l₁ :: UInt8.ofNat ref.length :: ref.mode ::
          (data ++ rest) := by
    unfold entryHead
    rw [hLabel]
    simp
  have hShort :
      ¬ (ref.mode = modeX ∧ n = 0 ∧
        (data ++ rest).length < 2) := by
    rintro ⟨_, _, hLess⟩
    rw [List.length_append] at hLess
    omega
  have hGood :
      ¬ (ref.mode = modeX ∧ n = 0 ∧
        swapVersion ((data ++ rest).getD 0 0)
            ((data ++ rest).getD 1 0) ≠ vpdVersion) := by
    rintro ⟨hMode, hZero, hOther⟩
    rw [hFirst 0 (by decide), hFirst 1 (by decide)] at hOther
    exact hOther (hVersion hMode hZero)
  have hRoom : ¬ (data ++ rest).length < ref.length := by
    rw [List.length_append]
    omega
  rw [hBuffer]
  unfold binLine
  simp only [hString, hByte, ne_eq, not_true_eq_false,
    if_false]
  rw [if_neg hShort, if_neg hGood, if_neg hRoom, ← hLen,
    List.take_left, List.drop_left]
  unfold lineOf
  simp only [List.append_assoc]

/- Every image of the ten entries is printed. -/
theorem bin2CsvLoop_imageOf
    {es : List (VpdLayout × List UInt8)}
    {n : Nat}
    {op : List UInt8}
    (hMem : ∀ e ∈ es, e.1 ∈ vpdRef102)
    (hCount : n + es.length = linesInVpd)
    (hSized : Sized es)
    (hVersion :
      n = 0 → ∀ e, es[0]? = some e → e.1.mode = modeX →
        GoodVersion 0 e.2) :
    bin2CsvLoop (es.map Prod.fst) n (imageOf es).length op
        (imageOf es) =
      some (true, op ++ (linesOf es).flatten) := by
  induction es generalizing n op with
  | nil =>
      unfold bin2CsvLoop
      have hAll : decide (linesInVpd = n) = true := by
        rw [← hCount]
        exact decide_eq_true rfl
      rw [hAll]
      simp [imageOf, linesOf]
  | cons e es ih =>
      rcases e with ⟨ref, data⟩
      have hRef : ref ∈ vpdRef102 :=
        hMem (ref, data) List.mem_cons_self
      have hLen : data.length = ref.length :=
        hSized (ref, data) List.mem_cons_self
      have hImage :
          imageOf ((ref, data) :: es) =
            entryHead ref ++ data ++ imageOf es := rfl
      have hLine :=
        @binLine_entry ref n data op (imageOf es) hRef hLen
          fun hMode hZero => hVersion hZero _ rfl hMode rfl
      have hFew :
          ((imageOf ((ref, data) :: es)).length : Int) ≠ 0 := by
        rw [hImage, List.length_append, List.length_append,
          length_entryHead hRef]
        omega
      have hRest :
          ((imageOf ((ref, data) :: es)).length : Int) -
              (4 + ref.length) = (imageOf es).length := by
        rw [hImage, List.length_append, List.length_append,
          length_entryHead hRef, hLen]
        omega
      rw [List.length_cons] at hCount
      rw [List.map_cons]
      unfold bin2CsvLoop
      rw [if_neg hFew]
      simp only [hRest]
      rw [hImage, hLine]
      simp only
      rw [ih (fun e h => hMem e (List.mem_cons_of_mem _ h))
        (by omega)
        (fun e h => hSized e (List.mem_cons_of_mem _ h))
        (fun h => by omega)]
      unfold linesOf
      rw [List.map_cons, List.flatten_cons,
        List.append_assoc]

theorem bin2Csv_imageOf
    {es : List (VpdLayout × List UInt8)}
    (hRefs : es.map Prod.fst = vpdRef102)
    (hSized : Sized es)
    (hVersion :
      ∀ e, es[0]? = some e → e.1.mode = modeX →
        GoodVersion 0 e.2) :
    bin2Csv (imageOf es).length (imageOf es) =
      some (true, (linesOf es).flatten) := by
  have hMem : ∀ e ∈ es, e.1 ∈ vpdRef102 := by
    intro e hE
    rw [← hRefs]
    exact List.mem_map_of_mem hE
  have hCount : 0 + es.length = linesInVpd := by
    unfold linesInVpd
    rw [← hRefs, List.length_map, Nat.zero_add]
  unfold bin2Csv
  rw [← hRefs]
  exact bin2CsvLoop_imageOf hMem hCount hSized
    fun _ => hVersion

------------------------------------------------------------
-- The Lines of the Text
------------------------------------------------------------

/- A line that ends in the only newline in it. -/
theorem fgetsFrom_line
    {read body : List UInt8}
    (hLen : read.length + body.length + 1 < maxLine)
    (hBody : newline ∉ body)
    (file : List UInt8) :
    fgetsFrom read (body ++ newline :: file) =
      (read ++ body ++ [newline]) :: fgetsFrom [] file := by
  induction body generalizing read with
  | nil =>
      rw [List.nil_append, fgetsFrom, if_pos (Or.inl rfl),
        List.append_nil]
  | cons c body ih =>
      have hOther : c ≠ newline :=
        fun h => hBody (h ▸ List.mem_cons_self)
      rw [List.length_cons] at hLen
      have hRoom : ¬ (c = newline ∨ read.length + 2 = maxLine) := by
        rintro (h | h)
        · exact hOther h
        · omega
      rw [List.cons_append, fgetsFrom, if_neg hRoom, ih]
      · rw [List.append_assoc read [c] body]
        rfl
      · rw [List.length_append, List.length_singleton]
        omega
      · exact fun h => hBody (List.mem_cons_of_mem _ h)

/- Lines written one behind the other are read again. -/
theorem fgetsAll_flatten
    {lines : List (List UInt8)}
    (hLines :
      ∀ line ∈ lines, ∃ body,
        line = body ++ [newline] ∧ newline ∉ body ∧
          body.length + 1 < maxLine) :
    fgetsAll lines.flatten = lines := by
  induction lines with
  | nil => rfl
  | cons line lines ih =>
      rcases hLines line List.mem_cons_self with
        ⟨body, rfl, hBody, hLen⟩
      have hRead :=
        @fgetsFrom_line [] body (by
          rw [List.length_nil, Nat.zero_add]
          exact hLen) hBody lines.flatten
      unfold fgetsAll at ih ⊢
      rw [List.flatten_cons, List.append_assoc,
        List.singleton_append, hRead,
        ih fun l h => hLines l (List.mem_cons_of_mem _ h)]
      rfl

/- The characters of a line that stand for themselves. -/
def Ordinary (c : UInt8) : Prop :=
  c ≠ 0 ∧ c ≠ newline

theorem ordinary_hexDigit
    (n : UInt8) (hn : n < 16) :
    hexDigit n ≠ comma ∧ hexDigit n ≠ quote ∧
      Ordinary (hexDigit n) ∧ a2h (hexDigit n) = n := by
  have hAll :
      ∀ i : Fin 16,
        hexDigit (UInt8.ofNat i) ≠ comma ∧
          hexDigit (UInt8.ofNat i) ≠ quote ∧
          (hexDigit (UInt8.ofNat i) ≠ 0 ∧
            hexDigit (UInt8.ofNat i) ≠ newline) ∧
          a2h (hexDigit (UInt8.ofNat i)) = UInt8.ofNat i := by
    decide
  have hNat : n.toNat < 16 := UInt8.lt_iff_toNat_lt.mp hn
  have hSame : UInt8.ofNat n.toNat = n := UInt8.ofNat_toNat
  have hOne := hAll ⟨n.toNat, hNat⟩
  simp only [hSame] at hOne
  exact hOne

theorem nibbles_lt (b : UInt8) :
    b >>> 4 < 16 ∧ b &&& 0x0f < 16 := by
  have hb := b.toNat_lt
  constructor
  · apply UInt8.lt_iff_toNat_lt.mpr
    rw [UInt8.toNat_shiftRight]
    simp only [UInt8.reduceToNat, Nat.reduceMod,
      Nat.shiftRight_eq_div_pow, Nat.reducePow]
    omega
  · apply UInt8.lt_iff_toNat_lt.mpr
    rw [UInt8.toNat_and]
    simp only [UInt8.reduceToNat]
    exact Nat.lt_of_le_of_lt Nat.and_le_right (by decide)

theorem nibbles_join (b : UInt8) :
    (b &&& (0x0f : UInt8)) |||
        ((b >>> (4 : UInt8)) <<< (4 : UInt8)) = b := by
  apply UInt8.toBitVec_inj.mp
  apply BitVec.eq_of_getLsbD_eq
  intro i hi
  change
    ((b.toBitVec &&& 0x0f#8) |||
        ((b.toBitVec >>> 4) <<< 4)).getLsbD i =
      b.toBitVec.getLsbD i
  interval_cases i <;> simp

/- Printed bytes are read again, from the end on. -/
theorem unhex_hexByte (data : List UInt8) :
    unhex (data.flatMap hexByte).reverse = data.reverse := by
  induction data using List.reverseRecOn with
  | nil => rfl
  | append_singleton data b ih =>
      have hLow := (ordinary_hexDigit _ (nibbles_lt b).2).2.2.2
      have hHigh := (ordinary_hexDigit _ (nibbles_lt b).1).2.2.2
      rw [List.flatMap_append, List.reverse_append,
        List.reverse_append]
      have hByte :
          (List.flatMap hexByte [b]).reverse =
            [hexDigit (b &&& 0x0f), hexDigit (b >>> 4)] := rfl
      rw [hByte, List.cons_append, List.singleton_append,
        unhex, ih, hLow, hHigh, nibbles_join]
      rfl

------------------------------------------------------------
-- The Fields of a Line
------------------------------------------------------------

/- A word in front of a comma is a field. -/
theorem fieldsOf_word
    {word : List UInt8}
    (hWord : comma ∉ word)
    (line : List UInt8) :
    fieldsOf (word ++ comma :: line) =
      word.filter (· != quote) :: fieldsOf line := by
  induction word with
  | nil => exact fieldsOf_comma line
  | cons c word ih =>
      have hOther : c ≠ comma :=
        fun h => hWord (h ▸ List.mem_cons_self)
      rw [List.cons_append, fieldsOf_other hOther,
        ih fun h => hWord (List.mem_cons_of_mem _ h),
        List.modifyHead_cons, List.filter_cons]
      by_cases hQuote : c = quote
      · simp [hQuote]
      · simp [hQuote]

/- The first field ends at the first comma. -/
theorem fieldsOf_head (line : List UInt8) :
    ∃ more,
      fieldsOf line =
        (line.takeWhile (· != comma)).filter (· != quote) ::
          more := by
  induction line with
  | nil => exact ⟨[], rfl⟩
  | cons c line ih =>
      by_cases hComma : c = comma
      · rw [hComma, fieldsOf_comma]
        exact ⟨fieldsOf line, by simp⟩
      · rcases ih with ⟨more, hMore⟩
        rw [fieldsOf_other hComma, hMore,
          List.modifyHead_cons]
        refine ⟨more, ?_⟩
        have hGo : (c != comma) = true := by simpa using hComma
        rw [List.takeWhile_cons, if_pos hGo]
        by_cases hQuote : c = quote
        · simp [hQuote]
        · simp [hQuote]

/- What is printed in front of the data of an entry. -/
theorem lineHead_facts
    {ref : VpdLayout}
    (hMem : ref ∈ vpdRef102) :
    comma ∉ [quote] ++ ref.label ++ [quote] ∧
      ([quote] ++ ref.label ++ [quote]).filter
          (· != quote) = ref.label ∧
      comma ∉ decimal ref.length ∧
      scanInt ((decimal ref.length).filter (· != quote)) =
        some (ref.length : Int) ∧
      comma ∉ [quote, ref.mode, quote] ∧
      [quote, ref.mode, quote].filter (· != quote) =
        [ref.mode] ∧
      (lineHead ref).length ≤ 12 := by
  revert hMem
  revert ref
  decide

theorem lineHead_ordinary
    {ref : VpdLayout}
    {c : UInt8}
    (hMem : ref ∈ vpdRef102)
    (hC : c ∈ lineHead ref) : Ordinary c := by
  have hAll :
      vpdRef102.all
        (fun ref =>
          (lineHead ref).all
            (fun c => c != 0 && c != newline)) = true := by
    decide
  have hHead := List.all_eq_true.mp hAll ref hMem
  have hOne := List.all_eq_true.mp hHead c hC
  rw [Bool.and_eq_true, bne_iff_ne, bne_iff_ne] at hOne
  exact hOne

/- The fields of a printed line. -/
theorem fieldsOf_lineHead
    {ref : VpdLayout}
    (hMem : ref ∈ vpdRef102)
    (line : List UInt8) :
    fieldsOf (lineHead ref ++ line) =
      ref.label ::
        (decimal ref.length).filter (· != quote) ::
        [ref.mode] :: fieldsOf line := by
  rcases lineHead_facts hMem with
    ⟨hLabel, hLabelEq, hLength, _, hMode, hModeEq, _⟩
  have hSplit :
      lineHead ref ++ line =
        ([quote] ++ ref.label ++ [quote]) ++ comma ::
          (decimal ref.length ++ comma ::
            ([quote, ref.mode, quote] ++ comma :: line)) := by
    unfold lineHead
    simp only [List.append_assoc, List.cons_append,
      List.nil_append]
  rw [hSplit, fieldsOf_word hLabel, fieldsOf_word hLength,
    fieldsOf_word hMode, hLabelEq, hModeEq]

------------------------------------------------------------
-- What Is Read Again
------------------------------------------------------------

/- The field that is found in a printed line. -/
def readBack (ref : VpdLayout) (data : List UInt8) :
    List UInt8 :=
  if ref.mode = modeA then
    ((data.filter isPrint).takeWhile (· != comma)).filter
      (· != quote)
  else data.flatMap hexByte

/- An entry after it was printed and read. -/
def reread (e : VpdLayout × List UInt8) :
    VpdLayout × List UInt8 :=
  (e.1, payload e.1 (readBack e.1 e.2))

theorem filter_takeWhile_quoted (p : List UInt8) :
    ([quote] ++ p ++ [quote]).takeWhile (· != comma) =
        quote ::
          (p ++ [quote]).takeWhile (· != comma) ∧
      ((p ++ [quote]).takeWhile (· != comma)).filter
          (· != quote) =
        (p.takeWhile (· != comma)).filter (· != quote) := by
  constructor
  · rw [List.append_assoc, List.singleton_append,
      List.takeWhile_cons, if_pos (by decide)]
  · rw [List.takeWhile_append]
    split
    · rename_i hAll
      have hSame : p.takeWhile (· != comma) = p :=
        (List.takeWhile_prefix _).eq_of_length hAll
      rw [List.filter_append, hSame]
      have hQuote :
          (List.takeWhile (· != comma) [quote]).filter
            (· != quote) = [] := by decide
      rw [hQuote, List.append_nil]
    · rfl

theorem hexDigits_plain
    {data : List UInt8}
    {c : UInt8}
    (hMem : c ∈ data.flatMap hexByte) :
    c ≠ comma ∧ c ≠ quote ∧ Ordinary c := by
  rcases List.mem_flatMap.mp hMem with ⟨b, _, hB⟩
  have hLow := ordinary_hexDigit _ (nibbles_lt b).2
  have hHigh := ordinary_hexDigit _ (nibbles_lt b).1
  rcases List.mem_cons.mp hB with rfl | hB
  · exact ⟨hHigh.1, hHigh.2.1, hHigh.2.2.1⟩
  · cases List.mem_singleton.mp hB
    exact ⟨hLow.1, hLow.2.1, hLow.2.2.1⟩

theorem ordinary_of_isPrint
    {c : UInt8}
    (hPrint : isPrint c = true) : Ordinary c := by
  have hRange := of_decide_eq_true hPrint
  constructor
  · rintro rfl
    revert hRange
    decide
  · rintro rfl
    revert hRange
    decide

theorem lineData_ordinary
    {mode c : UInt8}
    {data : List UInt8}
    (hMem : c ∈ lineData mode data) : Ordinary c := by
  unfold lineData at hMem
  split at hMem
  · rw [List.append_assoc, List.singleton_append] at hMem
    rcases List.mem_cons.mp hMem with rfl | hMem
    · exact ⟨by decide, by decide⟩
    · rcases List.mem_append.mp hMem with hMem | hMem
      · exact ordinary_of_isPrint (List.mem_filter.mp hMem).2
      · cases List.mem_singleton.mp hMem
        exact ⟨by decide, by decide⟩
  · exact (hexDigits_plain hMem).2.2

/- The first field of the data is what is read back. -/
theorem fieldsOf_lineData
    (ref : VpdLayout) (data : List UInt8) :
    ∃ more,
      fieldsOf (lineData ref.mode data) =
        readBack ref data :: more := by
  rcases fieldsOf_head (lineData ref.mode data) with
    ⟨more, hMore⟩
  refine ⟨more, ?_⟩
  rw [hMore]
  apply congrArg (· :: more)
  unfold lineData readBack
  split
  · rcases filter_takeWhile_quoted (data.filter isPrint) with
      ⟨hTake, hFilter⟩
    rw [hTake, List.filter_cons, if_neg (by decide), hFilter]
  · have hTake :
        (data.flatMap hexByte).takeWhile (· != comma) =
          data.flatMap hexByte := by
      apply List.takeWhile_eq_self_iff.mpr
      intro c hMem
      simpa using (hexDigits_plain hMem).1
    rw [hTake]
    apply List.filter_eq_self.mpr
    intro c hMem
    simpa using (hexDigits_plain hMem).2.1

theorem length_readBack
    {ref : VpdLayout}
    {data : List UInt8}
    (hLen : data.length = ref.length) :
    (ref.mode = modeA →
        (readBack ref data).length ≤ ref.length) ∧
      (ref.mode ≠ modeA →
        (readBack ref data).length ≤ 2 * ref.length) := by
  constructor
  · intro hMode
    unfold readBack
    rw [if_pos hMode, ← hLen]
    calc
      _ ≤ ((data.filter isPrint).takeWhile
            (· != comma)).length := List.length_filter_le _ _
      _ ≤ (data.filter isPrint).length :=
        (List.takeWhile_prefix _).length_le
      _ ≤ data.length := List.length_filter_le _ _
  · intro hMode
    unfold readBack
    rw [if_neg hMode, List.length_flatMap]
    have hTwo :
        data.map (fun b => (hexByte b).length) =
          List.replicate data.length 2 := by
      apply List.ext_getElem
      · simp
      · intro i _ _
        simp [hexByte]
    rw [hTwo, List.sum_replicate, hLen, smul_eq_mul]
    omega

/- Digits give the data again. -/
theorem payload_hex
    {ref : VpdLayout}
    {data : List UInt8}
    (hMode : ref.mode ≠ modeA)
    (hLen : data.length = ref.length) :
    payload ref (readBack ref data) = data := by
  have hUnhex :
      unhex (readBack ref data).reverse = data.reverse := by
    unfold readBack
    rw [if_neg hMode]
    exact unhex_hexByte data
  unfold payload filling
  rw [if_neg hMode, hUnhex, List.length_reverse, hLen,
    Nat.sub_self, List.reverse_reverse]
  rfl

theorem readBack_fits
    {ref : VpdLayout}
    {k : Nat}
    {data : List UInt8}
    (hMode : ref.mode = modeA ∨ ref.mode = modeX)
    (hLen : data.length = ref.length)
    (hVersion : ref.mode = modeX → GoodVersion k data) :
    FieldFits k ref (readBack ref data) := by
  unfold FieldFits
  by_cases hText : ref.mode = modeA
  · rw [if_pos hText]
    exact (length_readBack hLen).1 hText
  · rw [if_neg hText, payload_hex hText hLen]
    exact ⟨(length_readBack hLen).2 hText,
      hVersion (hMode.resolve_left hText)⟩

theorem length_lineData
    {ref : VpdLayout}
    {data : List UInt8}
    (hLen : data.length = ref.length) :
    (lineData ref.mode data).length ≤ 2 * ref.length + 2 := by
  unfold lineData
  split
  · have hFilter : (data.filter isPrint).length ≤ data.length :=
      List.length_filter_le _ _
    simp only [List.length_append, List.length_singleton]
    omega
  · rename_i hMode
    have hHex := (length_readBack hLen).2 hMode
    unfold readBack at hHex
    rw [if_neg hMode] at hHex
    omega

theorem cString_ordinary
    {line : List UInt8}
    (hLine : ∀ c ∈ line, c ≠ 0) : cString line = line := by
  apply List.takeWhile_eq_self_iff.mpr
  intro c hMem
  simpa using hLine c hMem

/- A printed line is an entry again. -/
theorem lineVerdict_lineOf
    {ref : VpdLayout}
    {k : Nat}
    {data : List UInt8}
    (hRef : vpdRef102[k]? = some ref)
    (hLen : data.length = ref.length)
    (hVersion : ref.mode = modeX → GoodVersion k data) :
    lineVerdict k (lineOf (ref, data)) =
      .entry
        (entryHead ref ++ payload ref (readBack ref data)) := by
  have hMem := List.mem_of_getElem? hRef
  have hFacts := lineHead_facts hMem
  have hText : cString (lineOf (ref, data)) = lineOf (ref, data) := by
    apply cString_ordinary
    intro c hC
    unfold lineOf at hC
    rcases List.mem_append.mp hC with hC | hC
    · rcases List.mem_append.mp hC with hC | hC
      · exact (lineHead_ordinary hMem hC).1
      · exact (lineData_ordinary hC).1
    · rintro rfl
      exact absurd hC (by decide)
  have hCut :
      (lineOf (ref, data)).take
          ((lineOf (ref, data)).length - 2) =
        lineHead ref ++ lineData ref.mode data := by
    unfold lineOf
    have hEnd : lineEnd.length = 2 := rfl
    rw [List.length_append, hEnd, Nat.add_sub_cancel,
      List.take_left]
  have hLong : ¬ (lineOf (ref, data)).length < 2 := by
    unfold lineOf lineEnd
    simp only [List.length_append, List.length_cons,
      List.length_nil]
    omega
  rcases fieldsOf_lineData ref data with ⟨more, hMore⟩
  have hFixed := fixed_of_mem hMem
  have hFits := readBack_fits hFixed.mode hLen hVersion
  unfold lineVerdict
  rw [hText, if_neg hLong, hCut, fieldsOf_lineHead hMem, hMore]
  unfold fieldsVerdict
  simp only [hFixed.label, hRef, hFacts.2.2.2.1, hFits,
    ne_eq, not_true_eq_false, if_false, if_true]

/- The lines of an image are the image of what is reread. -/
theorem fileVerdict_linesOf
    {es : List (VpdLayout × List UInt8)}
    {k : Nat}
    {image : List UInt8}
    (hRefs : es.map Prod.fst = vpdRef102.drop k)
    (hCount : k ≤ linesInVpd)
    (hSized : Sized es)
    (hVersion :
      k = 0 → ∀ e, es[0]? = some e → e.1.mode = modeX →
        GoodVersion 0 e.2) :
    fileVerdict k image (linesOf es) =
      some (some (image ++ imageOf (es.map reread))) := by
  induction es generalizing k image with
  | nil =>
      have hAll : linesInVpd = k := by
        have hDrop := congrArg List.length hRefs
        rw [List.length_drop] at hDrop
        unfold linesInVpd at *
        simp only [List.map_nil, List.length_nil] at hDrop
        omega
      unfold linesOf fileVerdict
      rw [if_pos hAll]
      simp [imageOf]
  | cons e es ih =>
      rcases e with ⟨ref, data⟩
      have hRef : vpdRef102[k]? = some ref := by
        have hHead := congrArg (·[0]?) hRefs
        simp only [List.map_cons, List.getElem?_cons_zero,
          List.getElem?_drop, Nat.add_zero] at hHead
        exact hHead.symm
      have hIn : k < linesInVpd :=
        (List.getElem?_eq_some_iff.mp hRef).1
      have hLen : data.length = ref.length :=
        hSized (ref, data) List.mem_cons_self
      have hGood : ref.mode = modeX → GoodVersion k data := by
        intro hMode hZero
        exact hVersion hZero (ref, data) rfl hMode rfl
      have hNext : es.map Prod.fst = vpdRef102.drop (k + 1) := by
        have hTail := congrArg List.tail hRefs
        rw [List.map_cons, List.tail_cons, List.tail_drop]
          at hTail
        exact hTail
      have hLine := lineVerdict_lineOf hRef hLen hGood
      unfold linesOf fileVerdict
      rw [List.map_cons]
      simp only [hLine]
      have hRest :=
        @ih (k + 1)
          (image ++
            (entryHead ref ++ payload ref (readBack ref data)))
          hNext hIn
          (fun e h => hSized e (List.mem_cons_of_mem _ h))
          (fun h => by omega)
      unfold linesOf at hRest
      rw [hRest, List.map_cons, List.append_assoc]
      rfl

/- The lines of the text are the printed lines. -/
theorem fgetsAll_linesOf
    {es : List (VpdLayout × List UInt8)}
    (hMem : ∀ e ∈ es, e.1 ∈ vpdRef102)
    (hSized : Sized es) :
    fgetsAll (linesOf es).flatten = linesOf es := by
  apply fgetsAll_flatten
  intro line hLine
  rcases List.mem_map.mp hLine with ⟨e, hE, rfl⟩
  have hFacts := lineHead_facts (hMem e hE)
  have hShort := (fixed_of_mem (hMem e hE)).short
  have hData := length_lineData (hSized e hE)
  refine ⟨lineHead e.1 ++ lineData e.1.mode e.2 ++ [comma],
    ?_, ?_, ?_⟩
  · unfold lineOf lineEnd
    simp only [List.append_assoc, List.singleton_append]
  · intro hNew
    rcases List.mem_append.mp hNew with hNew | hNew
    · rcases List.mem_append.mp hNew with hNew | hNew
      · exact (lineHead_ordinary (hMem e hE) hNew).2 rfl
      · exact (lineData_ordinary hNew).2 rfl
    · cases List.mem_singleton.mp hNew
  · have hHead := hFacts.2.2.2.2.2.2
    simp only [List.length_append, List.length_singleton]
    unfold maxLine
    omega

/- The text of an image is accepted. -/
theorem csv2Bin_linesOf
    {es : List (VpdLayout × List UInt8)}
    (hRefs : es.map Prod.fst = vpdRef102)
    (hSized : Sized es)
    (hVersion :
      ∀ e, es[0]? = some e → e.1.mode = modeX →
        GoodVersion 0 e.2) :
    ∃ st,
      csv2Bin (linesOf es).flatten = some (true, st) ∧
        st.buffer = imageOf (es.map reread) := by
  have hMem : ∀ e ∈ es, e.1 ∈ vpdRef102 := by
    intro e hE
    rw [← hRefs]
    exact List.mem_map_of_mem hE
  have hFile := csv2Bin_result (linesOf es).flatten
  rw [fgetsAll_linesOf hMem hSized,
    fileVerdict_linesOf hRefs (Nat.zero_le _) hSized
      (fun _ => hVersion), List.nil_append] at hFile
  generalize csv2Bin (linesOf es).flatten = result at hFile ⊢
  cases hFile with
  | accepted hCollected => exact ⟨_, rfl, hCollected.buffer⟩

------------------------------------------------------------
-- The Same Image
------------------------------------------------------------

/-
  Printable characters without commas and quotes, filled up
  with zeros.
-/
def PlainField (data : List UInt8) : Prop :=
  ∃ text n,
    data = text ++ List.replicate n 0 ∧
      ∀ c ∈ text,
        isPrint c = true ∧ c ≠ comma ∧ c ≠ quote

/- A field of text is read as it was exactly if it is plain. -/
theorem payload_text_iff
    {ref : VpdLayout}
    {data : List UInt8}
    (hMode : ref.mode = modeA)
    (hLen : data.length = ref.length) :
    payload ref (readBack ref data) = data ↔
      PlainField data := by
  unfold payload readBack filling
  rw [if_pos hMode, if_pos hMode]
  constructor
  · intro hSame
    refine ⟨_, _, hSame.symm, fun c hMem => ?_⟩
    rcases List.mem_filter.mp hMem with ⟨hTake, hQuote⟩
    have hIn := List.mem_filter.mp
      ((List.takeWhile_prefix _).subset hTake)
    have hComma := List.mem_takeWhile_imp hTake
    exact ⟨hIn.2, by simpa using hComma, by simpa using hQuote⟩
  · rintro ⟨text, n, rfl, hText⟩
    have hPrint :
        (text ++ List.replicate n 0).filter isPrint = text := by
      rw [List.filter_append,
        List.filter_eq_self.mpr fun c h => (hText c h).1,
        List.filter_eq_nil_iff.mpr]
      · rw [List.append_nil]
      · intro c hC
        cases List.eq_of_mem_replicate hC
        decide
    have hTake : text.takeWhile (· != comma) = text := by
      apply List.takeWhile_eq_self_iff.mpr
      intro c hC
      simpa using (hText c hC).2.1
    have hFilter : text.filter (· != quote) = text := by
      apply List.filter_eq_self.mpr
      intro c hC
      simpa using (hText c hC).2.2
    rw [hPrint, hTake, hFilter]
    rw [List.length_append, List.length_replicate] at hLen
    rw [← hLen, Nat.add_sub_cancel_left]

theorem sized_reread
    {es : List (VpdLayout × List UInt8)}
    (hMem : ∀ e ∈ es, e.1 ∈ vpdRef102)
    (hSized : Sized es) : Sized (es.map reread) := by
  intro e' hE'
  rcases List.mem_map.mp hE' with ⟨e, hE, rfl⟩
  have hMode := (fixed_of_mem (hMem e hE)).mode
  by_cases hText : e.1.mode = modeA
  · have hFits : FieldFits 1 e.1 (readBack e.1 e.2) :=
      readBack_fits hMode (hSized e hE)
        fun _ h => nomatch h
    exact length_payload hFits
  · show (payload e.1 (readBack e.1 e.2)).length = e.1.length
    rw [payload_hex hText (hSized e hE)]
    exact hSized e hE

/- An image has one list of entries only. -/
theorem imageOf_inj
    {es es' : List (VpdLayout × List UInt8)}
    (hRefs : es.map Prod.fst = es'.map Prod.fst)
    (hSized : Sized es)
    (hSized' : Sized es')
    (hSame : imageOf es = imageOf es') : es = es' := by
  induction es generalizing es' with
  | nil =>
      cases es' with
      | nil => rfl
      | cons e' es' => cases hRefs
  | cons e es ih =>
      cases es' with
      | nil => cases hRefs
      | cons e' es' =>
          rw [List.map_cons, List.map_cons] at hRefs
          rcases List.cons_eq_cons.mp hRefs with
            ⟨hRef, hRest⟩
          unfold imageOf at hSame
          rw [List.flatMap_cons, List.flatMap_cons, ← hRef]
            at hSame
          have hLen :
              (entryHead e.1 ++ e.2).length =
                (entryHead e.1 ++ e'.2).length := by
            rw [List.length_append, List.length_append,
              hSized e List.mem_cons_self,
              hSized' e' List.mem_cons_self, hRef]
          rcases List.append_inj hSame hLen with
            ⟨hEntry, hMore⟩
          have hData := List.append_cancel_left hEntry
          have hHead : e = e' := Prod.ext hRef hData
          rw [hHead, ih hRest
            (fun e h => hSized e (List.mem_cons_of_mem _ h))
            (fun e h => hSized' e (List.mem_cons_of_mem _ h))
            hMore]

/- Where an entry starts. -/
def entryOffset (k : Nat) : Nat :=
  ((vpdRef102.take k).map (4 + ·.length)).sum

/- The data of an entry in an image. -/
def fieldAt
    (k : Nat) (ref : VpdLayout) (image : List UInt8) :
    List UInt8 :=
  (image.drop (entryOffset k + 4)).take ref.length

theorem drop_imageOf
    {es : List (VpdLayout × List UInt8)}
    (hMem : ∀ e ∈ es, e.1 ∈ vpdRef102)
    (hSized : Sized es)
    (k : Nat) :
    (imageOf es).drop
        ((((es.map Prod.fst).take k).map
          (4 + ·.length)).sum) = imageOf (es.drop k) := by
  induction es generalizing k with
  | nil => simp [imageOf]
  | cons e es ih =>
      cases k with
      | zero => simp
      | succ k =>
          have hLen :
              (entryHead e.1 ++ e.2).length =
                4 + e.1.length := by
            unfold entryHead
            rw [List.length_append, List.length_append,
              (fixed_of_mem (hMem e List.mem_cons_self)).label,
              hSized e List.mem_cons_self]
            rfl
          have hRest :=
            ih (fun e h => hMem e (List.mem_cons_of_mem _ h))
              (fun e h => hSized e (List.mem_cons_of_mem _ h))
              k
          unfold imageOf at hRest ⊢
          rw [List.flatMap_cons, List.map_cons,
            List.take_succ_cons, List.map_cons, List.sum_cons,
            List.drop_succ_cons, ← hLen, List.drop_append,
            List.drop_eq_nil_of_le (Nat.le_add_right _ _),
            Nat.add_sub_cancel_left, hRest, List.nil_append]

theorem fieldAt_imageOf
    {es : List (VpdLayout × List UInt8)}
    {k : Nat}
    {e : VpdLayout × List UInt8}
    (hRefs : es.map Prod.fst = vpdRef102)
    (hSized : Sized es)
    (hGet : es[k]? = some e) :
    fieldAt k e.1 (imageOf es) = e.2 := by
  have hMem : ∀ e ∈ es, e.1 ∈ vpdRef102 := by
    intro e hE
    rw [← hRefs]
    exact List.mem_map_of_mem hE
  have hDrop := drop_imageOf hMem hSized k
  rw [hRefs] at hDrop
  rcases List.getElem?_eq_some_iff.mp hGet with ⟨hIn, hE⟩
  have hRest : es.drop k = e :: es.drop (k + 1) := by
    rw [← hE]
    exact List.drop_eq_getElem_cons hIn
  have hHead : (entryHead e.1).length = 4 := by
    unfold entryHead
    rw [List.length_append,
      (fixed_of_mem
        (hMem e (List.mem_of_getElem? hGet))).label]
    rfl
  unfold fieldAt entryOffset
  rw [← List.drop_drop, hDrop, hRest]
  unfold imageOf
  rw [List.flatMap_cons, List.append_assoc, ← hHead,
    List.drop_left, ← hSized e (List.mem_of_getElem? hGet),
    List.take_left]

/- Every entry is read as it was printed. -/
theorem reread_eq_iff
    {es : List (VpdLayout × List UInt8)}
    (hSized : Sized es) :
    es.map reread = es ↔
      ∀ e ∈ es, e.1.mode = modeA → PlainField e.2 := by
  have hEach :
      ∀ e ∈ es,
        (reread e = e ↔
          (e.1.mode = modeA → PlainField e.2)) := by
    intro e hE
    have hIff :
        reread e = e ↔ payload e.1 (readBack e.1 e.2) = e.2 :=
      ⟨fun h => congrArg Prod.snd h, fun h => Prod.ext rfl h⟩
    rw [hIff]
    by_cases hText : e.1.mode = modeA
    · rw [payload_text_iff hText (hSized e hE)]
      exact ⟨fun h _ => h, fun h => h hText⟩
    · exact iff_of_true (payload_hex hText (hSized e hE))
        fun h => absurd h hText
  constructor
  · intro hSame e hE
    rcases List.getElem_of_mem hE with ⟨i, hi, rfl⟩
    have hGet := congrArg (·[i]?) hSame
    simp only [List.getElem?_map,
      List.getElem?_eq_getElem hi, Option.map_some] at hGet
    exact (hEach _ hE).mp (Option.some.inj hGet)
  · intro hAll
    conv_rhs => rw [← List.map_id es]
    apply List.map_congr_left
    intro e hE
    exact (hEach e hE).mpr (hAll e hE)

/-
  An image that was printed is read as it was exactly if all
  its fields of text are plain.
-/
theorem roundTrip_iff
    (image text : List UInt8)
    (hSize : image.length = vpdSize)
    (hPrint :
      bin2Csv vpdSize image = some (true, text)) :
    (∃ st,
        csv2Bin text = some (true, st) ∧
          st.buffer = image) ↔
      ∀ k ref,
        vpdRef102[k]? = some ref → ref.mode = modeA →
          PlainField (fieldAt k ref image) := by
  rw [← hSize] at hPrint
  rcases bin2Csv_true hPrint with
    ⟨es, hRefs, hSized, rfl, rfl, hVersion⟩
  have hMem : ∀ e ∈ es, e.1 ∈ vpdRef102 := by
    intro e hE
    rw [← hRefs]
    exact List.mem_map_of_mem hE
  rcases csv2Bin_linesOf hRefs hSized hVersion with
    ⟨st, hRead, hBuffer⟩
  have hSame :
      (∃ st,
        csv2Bin (linesOf es).flatten = some (true, st) ∧
          st.buffer = imageOf es) ↔ es.map reread = es := by
    constructor
    · rintro ⟨st', hRead', hBuffer'⟩
      rw [hRead] at hRead'
      cases hRead'
      apply imageOf_inj _ (sized_reread hMem hSized) hSized
      · exact hBuffer.symm.trans hBuffer'
      · rw [List.map_map]
        rfl
    · intro hReread
      exact ⟨st, hRead, by rw [hBuffer, hReread]⟩
  rw [hSame, reread_eq_iff hSized]
  constructor
  · intro hAll k ref hRef hMode
    rw [← hRefs, List.getElem?_map] at hRef
    rcases Option.map_eq_some_iff.mp hRef with ⟨e, hGet, rfl⟩
    rw [fieldAt_imageOf hRefs hSized hGet]
    exact hAll e (List.mem_of_getElem? hGet) hMode
  · intro hAll e hE hMode
    rcases List.getElem_of_mem hE with ⟨k, hk, hGet⟩
    have hSome : es[k]? = some e := by
      rw [List.getElem?_eq_getElem hk, hGet]
    rw [← fieldAt_imageOf hRefs hSized hSome]
    apply hAll k e.1 _ hMode
    rw [← hRefs, List.getElem?_map, hSome]
    rfl

------------------------------------------------------------
-- A Part Number with a Comma
------------------------------------------------------------

/- The entries of an image with the given part number. -/
def partEntries (number : List UInt8) :
    List (VpdLayout × List UInt8) :=
  vpdRef102.zip
    [[0x01, 0x02], number, List.replicate 7 0,
      List.replicate 7 0, List.replicate 13 0,
      List.replicate 5 0, List.replicate 4 0,
      List.replicate 6 0, List.replicate 6 0,
      List.replicate 4 0]

def partImage (number : List UInt8) : List UInt8 :=
  imageOf (partEntries number)

def partText (number : List UInt8) : List UInt8 :=
  (linesOf (partEntries number)).flatten

/- A field that ends where its first zero is. -/
theorem plainField_of_zeros
    {data : List UInt8}
    (hZeros :
      data =
        cString data ++
          List.replicate
            (data.length - (cString data).length) 0)
    (hText :
      ∀ c ∈ cString data,
        isPrint c = true ∧ c ≠ comma ∧ c ≠ quote) :
    PlainField data :=
  ⟨_, _, hZeros, hText⟩

/- An image of this kind is printed. -/
theorem bin2Csv_part
    {number : List UInt8}
    (hLen : number.length = 7) :
    (partImage number).length = vpdSize ∧
      Sized (partEntries number) ∧
      (∀ e,
        (partEntries number)[0]? = some e →
          e.1.mode = modeX → GoodVersion 0 e.2) ∧
      bin2Csv vpdSize (partImage number) =
        some (true, partText number) := by
  have hSize : (partImage number).length = vpdSize := by
    unfold partImage imageOf partEntries
    simp [vpdRef102, entryHead, hLen]
    rfl
  have hSized : Sized (partEntries number) := by
    unfold Sized partEntries
    simp [vpdRef102, hLen]
  have hVersion :
      ∀ e,
        (partEntries number)[0]? = some e →
          e.1.mode = modeX → GoodVersion 0 e.2 := by
    intro e hE _
    cases hE
    exact fun _ => rfl
  have hPrint := bin2Csv_imageOf rfl hSized hVersion
  rw [← partImage, hSize] at hPrint
  exact ⟨hSize, hSized, hVersion, hPrint⟩

theorem roundTrip_part :
    (partImage [0x31, 0x32, 0x41, 0, 0, 0, 0]).length =
        vpdSize ∧
      bin2Csv vpdSize
          (partImage [0x31, 0x32, 0x41, 0, 0, 0, 0]) =
        some (true,
          partText [0x31, 0x32, 0x41, 0, 0, 0, 0]) ∧
      ∃ st,
        csv2Bin (partText [0x31, 0x32, 0x41, 0, 0, 0, 0]) =
            some (true, st) ∧
          st.buffer =
            partImage [0x31, 0x32, 0x41, 0, 0, 0, 0] := by
  rcases @bin2Csv_part [0x31, 0x32, 0x41, 0, 0, 0, 0] rfl with
    ⟨hSize, _, _, hPrint⟩
  refine ⟨hSize, hPrint, ?_⟩
  apply (roundTrip_iff _ _ hSize hPrint).mpr
  intro k ref hRef hMode
  have hIn : k < 10 := (List.getElem?_eq_some_iff.mp hRef).1
  interval_cases k <;> cases hRef <;>
    first
      | exact
          plainField_of_zeros (by decide +kernel)
            (by decide +kernel)
      | exact absurd hMode (by decide)

/- The part number is cut off at the comma in it. -/
theorem roundTrip_fails :
    (partImage [0x31, 0x2c, 0x32, 0, 0, 0, 0]).length =
        vpdSize ∧
      bin2Csv vpdSize
          (partImage [0x31, 0x2c, 0x32, 0, 0, 0, 0]) =
        some (true,
          partText [0x31, 0x2c, 0x32, 0, 0, 0, 0]) ∧
      ¬ ∃ st,
        csv2Bin (partText [0x31, 0x2c, 0x32, 0, 0, 0, 0]) =
            some (true, st) ∧
          st.buffer =
            partImage [0x31, 0x2c, 0x32, 0, 0, 0, 0] := by
  rcases @bin2Csv_part [0x31, 0x2c, 0x32, 0, 0, 0, 0] rfl with
    ⟨hSize, hSized, hVersion, hPrint⟩
  refine ⟨hSize, hPrint, ?_⟩
  rintro ⟨st, hRead, hBuffer⟩
  rcases csv2Bin_linesOf rfl hSized hVersion with
    ⟨st', hRead', hBuffer'⟩
  rw [partText, hRead'] at hRead
  cases hRead
  rw [hBuffer'] at hBuffer
  revert hBuffer
  decide +kernel

end Vpd
