import GenWqe.Vpd.RoundTrip

/-
  The accesses of the two converters to their tables and
  buffers: for which files and which images they all are
  inside, and what is known of what is accepted.

  Key definitions include:
    * `Touches`, `InRange`
    * `Spelled`, `WellFormed`
    * `CsvSafe`, `CsvFit`
    * `BinSafe`, `BinFit`

  Main results:
    * `csvSafe_iff`
    * `binSafe_iff`
    * `converters_safe_iff`
-/

------------------------------------------------------------
-- Text Files
------------------------------------------------------------

namespace Vpd

/- The part of a line that is looked at. -/
def bodyOf (line : List UInt8) : List UInt8 :=
  (cString line).take ((cString line).length - 2)

/-
  A line with fewer than two characters, or a key of two
  characters behind the last entry of the table.
-/
def Touches (k : Nat) (line : List UInt8) : Prop :=
  (cString line).length < 2 ∨
    (linesInVpd ≤ k ∧
      ((fieldsOf (bodyOf line)).headD []).length = 2)

instance (k : Nat) (line : List UInt8) :
    Decidable (Touches k line) :=
  inferInstanceAs (Decidable (_ ∨ _))

/- No line does, up to the first one with an error. -/
def InRange (k : Nat) : List (List UInt8) → Prop
  | [] => True
  | line :: lines =>
      ¬ Touches k line ∧
        match lineVerdict k line with
        | .ignored => InRange k lines
        | .entry _ => InRange (k + 1) lines
        | _ => True

/- `isxdigit` in the C locale -/
def isXDigit (c : UInt8) : Bool :=
  isDigit c ||
    decide ((0x41 ≤ c ∧ c ≤ 0x46) ∨ (0x61 ≤ c ∧ c ≤ 0x66))

/- Numbers are spelled with digits. -/
def Spelled
    (ref : VpdLayout) (length data : List UInt8) : Prop :=
  (∀ c ∈ length, isDigit c = true) ∧
    (ref.mode = modeX → ∀ c ∈ data, isXDigit c = true)

/- A line that holds the entry with the index `k`. -/
def EntryLine (k : Nat) (line : List UInt8) : Prop :=
  ∃ ref length data more,
    vpdRef102[k]? = some ref ∧
    fieldsOf (bodyOf line) =
      ref.label :: length :: [ref.mode] :: data :: more ∧
    scanInt length = some (ref.length : Int) ∧
    FieldFits k ref data ∧ Spelled ref length data

/- The ten entries in their order, among other lines. -/
inductive WellFormed : Nat → List (List UInt8) → Prop
  | done : WellFormed linesInVpd []
  | ignored
      {k : Nat} {line : List UInt8}
      {lines : List (List UInt8)} :
      lineVerdict k line = .ignored →
      WellFormed k lines →
      WellFormed k (line :: lines)
  | entry
      {k : Nat} {line : List UInt8}
      {lines : List (List UInt8)} :
      EntryLine k line →
      WellFormed (k + 1) lines →
      WellFormed k (line :: lines)

/-
  Every access is inside, and what is accepted is well formed.
-/
def CsvSafe (file : List UInt8) : Prop :=
  ∃ ok st,
    csv2Bin file = some (ok, st) ∧
      (ok = true → WellFormed 0 (fgetsAll file))

/- The numbers of all entries are spelled with digits. -/
def AllSpelled (k : Nat) : List (List UInt8) → Prop
  | [] => True
  | line :: lines =>
    match lineVerdict k line with
    | .ignored => AllSpelled k lines
    | .entry _ => EntryLine k line ∧ AllSpelled (k + 1) lines
    | _ => True

/- The lines hold the ten entries, however spelled. -/
def HoldsAll (file : List UInt8) : Prop :=
  ∃ image, fileVerdict 0 [] (fgetsAll file) = some (some image)

def CsvFit (file : List UInt8) : Prop :=
  InRange 0 (fgetsAll file) ∧
    (HoldsAll file → AllSpelled 0 (fgetsAll file))

theorem fieldsVerdict_outside_iff
    (k : Nat) (fields : List (List UInt8)) :
    fieldsVerdict k fields = .outside ↔
      linesInVpd ≤ k ∧ (fields.headD []).length = 2 := by
  rcases fields with _ | ⟨key, fields⟩
  · simp [fieldsVerdict]
  unfold fieldsVerdict
  simp only [List.headD_cons]
  by_cases hKey : key.length ≠ 2
  · rw [if_pos hKey]
    exact iff_of_false nofun fun h => hKey h.2
  rw [if_neg hKey]
  cases hRef : vpdRef102[k]? with
  | none =>
      have hBehind : linesInVpd ≤ k :=
        List.getElem?_eq_none_iff.mp hRef
      exact iff_of_true rfl ⟨hBehind, not_not.mp hKey⟩
  | some ref =>
      have hIn : k < linesInVpd :=
        (List.getElem?_eq_some_iff.mp hRef).1
      refine iff_of_false ?_ fun h => by omega
      simp only
      split_ifs
      · nofun
      · split
        · nofun
        · split_ifs
          · nofun
          · split
            · nofun
            · split_ifs
              · nofun
              · split
                · nofun
                · split_ifs <;> nofun

theorem lineVerdict_outside_iff
    (k : Nat) (line : List UInt8) :
    lineVerdict k line = .outside ↔ Touches k line := by
  unfold lineVerdict Touches bodyOf
  by_cases hShort : (cString line).length < 2
  · rw [if_pos hShort]
    exact iff_of_true rfl (Or.inl hShort)
  · rw [if_neg hShort, fieldsVerdict_outside_iff]
    exact ⟨Or.inr, fun h => h.resolve_left hShort⟩

/- The file is read to its end, or to an error. -/
theorem fileVerdict_none_iff
    (k : Nat)
    (image : List UInt8)
    (lines : List (List UInt8)) :
    fileVerdict k image lines ≠ none ↔ InRange k lines := by
  induction lines generalizing k image with
  | nil => simp [fileVerdict, InRange]
  | cons line lines ih =>
      unfold fileVerdict InRange
      have hOutside := lineVerdict_outside_iff k line
      cases hVerdict : lineVerdict k line with
      | outside =>
          exact iff_of_false (fun h => h rfl)
            fun h => h.1 (hOutside.mp hVerdict)
      | refused =>
          refine iff_of_true nofun ⟨?_, trivial⟩
          intro hTouches
          rw [hOutside.mpr hTouches] at hVerdict
          cases hVerdict
      | ignored =>
          have hInside : ¬ Touches k line := by
            intro hTouches
            rw [hOutside.mpr hTouches] at hVerdict
            cases hVerdict
          exact (ih k image).trans
            ⟨fun h => ⟨hInside, h⟩, fun h => h.2⟩
      | entry bytes =>
          have hInside : ¬ Touches k line := by
            intro hTouches
            rw [hOutside.mpr hTouches] at hVerdict
            cases hVerdict
          exact (ih (k + 1) (image ++ bytes)).trans
            ⟨fun h => ⟨hInside, h⟩, fun h => h.2⟩

/- A line that holds an entry is one. -/
theorem EntryLine.verdict
    {k : Nat}
    {line : List UInt8}
    (hEntry : EntryLine k line) :
    ∃ bytes, lineVerdict k line = .entry bytes := by
  rcases hEntry with
    ⟨ref, length, data, more, hRef, hFields, hScan, hFits, _⟩
  have hFixed := fixed_of_get hRef
  have hLong : ¬ (cString line).length < 2 := by
    intro hShort
    have hNone : bodyOf line = [] := by
      unfold bodyOf
      have hZero : (cString line).length - 2 = 0 := by omega
      rw [hZero, List.take_zero]
    rw [hNone, fieldsOf_nil] at hFields
    exact nomatch (List.cons.inj hFields).2
  refine ⟨entryHead ref ++ payload ref data, ?_⟩
  unfold lineVerdict
  rw [if_neg hLong]
  unfold bodyOf at hFields
  rw [hFields]
  unfold fieldsVerdict
  simp only [hFixed.label, hRef, hScan, hFits, ne_eq,
    not_true_eq_false, if_false, if_true]

/- Ten entries that are spelled well make a good file. -/
theorem wellFormed_iff
    {k : Nat}
    {image₀ image : List UInt8}
    {lines : List (List UInt8)}
    (hAll : fileVerdict k image₀ lines = some (some image)) :
    WellFormed k lines ↔ AllSpelled k lines := by
  induction lines generalizing k image₀ with
  | nil =>
      unfold fileVerdict at hAll
      have hEnd : linesInVpd = k := by
        by_contra hFew
        rw [if_neg hFew] at hAll
        cases hAll
      subst hEnd
      exact iff_of_true .done trivial
  | cons line lines ih =>
      unfold fileVerdict at hAll
      unfold AllSpelled
      cases hVerdict : lineVerdict k line with
      | outside =>
          rw [hVerdict] at hAll
          cases hAll
      | refused =>
          rw [hVerdict] at hAll
          cases hAll
      | ignored =>
          rw [hVerdict] at hAll
          simp only
          rw [← ih hAll]
          constructor
          · intro hGood
            cases hGood with
            | ignored _ hRest => exact hRest
            | entry hEntry _ =>
                rcases hEntry.verdict with ⟨bytes, hOther⟩
                rw [hVerdict] at hOther
                cases hOther
          · exact .ignored hVerdict
      | entry bytes =>
          rw [hVerdict] at hAll
          simp only
          rw [← ih hAll]
          constructor
          · intro hGood
            cases hGood with
            | ignored hOther _ =>
                rw [hVerdict] at hOther
                cases hOther
            | entry hEntry hRest => exact ⟨hEntry, hRest⟩
          · rintro ⟨hEntry, hRest⟩
            exact .entry hEntry hRest

/- When `csv_2_bin` is safe on a file. -/
theorem csvSafe_iff (file : List UInt8) :
    CsvSafe file ↔ CsvFit file := by
  have hFile := csv2Bin_result file
  have hRange :=
    fileVerdict_none_iff 0 [] (fgetsAll file)
  unfold CsvSafe CsvFit HoldsAll
  rw [← hRange]
  generalize hVerdict :
    fileVerdict 0 [] (fgetsAll file) = verdict at *
  generalize csv2Bin file = result at *
  cases hFile with
  | outside =>
      exact iff_of_false (fun ⟨_, _, h, _⟩ => nomatch h)
        fun h => h.1 rfl
  | refused =>
      exact iff_of_true ⟨_, _, rfl, nofun⟩
        ⟨nofun, fun ⟨_, h⟩ => nomatch h⟩
  | @accepted st image hCollected =>
      have hIff := wellFormed_iff hVerdict
      constructor
      · rintro ⟨ok, st', hSome, hGood⟩
        cases hSome
        exact ⟨nofun, fun _ => hIff.mp (hGood rfl)⟩
      · rintro ⟨_, hSpelled⟩
        exact ⟨true, st, rfl,
          fun _ => hIff.mpr (hSpelled ⟨image, rfl⟩)⟩

------------------------------------------------------------
-- Images
------------------------------------------------------------

/- The `fs` bytes in front of a buffer. -/
def bytesOf (fs : Int) (buffer : ByteMem) : List UInt8 :=
  buffer.window 0 fs.toNat

/-
  No byte behind the `fs` ones is read and no entry behind the
  table, and what is accepted is an image of ten entries.
-/
def BinSafe (fs : Int) (buffer : ByteMem) : Prop :=
  ∃ ok text,
    bin2Csv fs (bytesOf fs buffer) = some (ok, text) ∧
      (ok = true →
        ∃ es,
          es.map Prod.fst = vpdRef102 ∧ Sized es ∧
          bytesOf fs buffer = imageOf es ∧
          ∀ e, es[0]? = some e → e.1.mode = modeX →
            GoodVersion 0 e.2)

/- The length of the first `j` entries. -/
def lengthOf (refs : List VpdLayout) (j : Nat) : Nat :=
  ((refs.take j).map (4 + ·.length)).sum

/-
  The first bytes of an entry are there, but not those of the
  table.
-/
def Mismatch
    (refs : List VpdLayout)
    (j : Nat)
    (image : List UInt8) : Prop :=
  ∃ ref,
    refs[j]? = some ref ∧
    lengthOf refs j + 4 ≤ image.length ∧
    (image.drop (lengthOf refs j)).take 4 ≠ entryHead ref

/- The version is there, but it is another one. -/
def OtherVersion
    (n : Nat)
    (refs : List VpdLayout)
    (image : List UInt8) : Prop :=
  n = 0 ∧
    (∃ ref, refs[0]? = some ref ∧ ref.mode = modeX) ∧
    6 ≤ image.length ∧
    swapVersion (image.getD 4 0) (image.getD 5 0) ≠ vpdVersion

/-
  Either the bytes end where an entry does, or there is an
  error in front of their end.
-/
def Stops
    (n : Nat)
    (refs : List VpdLayout)
    (image : List UInt8) : Prop :=
  (∃ j ≤ refs.length, image.length = lengthOf refs j) ∨
    (∃ j, Mismatch refs j image) ∨ OtherVersion n refs image

def BinFit (fs : Int) (buffer : ByteMem) : Prop :=
  0 ≤ fs ∧ Stops 0 vpdRef102 (bytesOf fs buffer)

section Images

variable {ref : VpdLayout} {n : Nat}
variable {op buffer : List UInt8}

theorem binLine_short
    (hShort : buffer.length < 4) :
    binLine ref n op buffer = none := by
  rcases buffer with _ | ⟨a, _ | ⟨b, _ | ⟨c, _ | ⟨d, rest⟩⟩⟩⟩
  · rfl
  · rfl
  · rfl
  · rfl
  · simp only [List.length_cons] at hShort
    omega

/- Other bytes in front of an entry are an error. -/
theorem binLine_other
    (hMem : ref ∈ vpdRef102)
    (hLong : 4 ≤ buffer.length)
    (hOther : buffer.take 4 ≠ entryHead ref) :
    ∃ op' buffer',
      binLine ref n op buffer = some (false, op', buffer') := by
  rcases buffer with _ | ⟨a, _ | ⟨b, _ | ⟨c, _ | ⟨d, rest⟩⟩⟩⟩
  · simp only [List.length_nil] at hLong
    omega
  · simp only [List.length_cons, List.length_nil] at hLong
    omega
  · simp only [List.length_cons, List.length_nil] at hLong
    omega
  · simp only [List.length_cons, List.length_nil] at hLong
    omega
  unfold binLine
  simp only
  by_cases hLabel : cString [a, b] ≠ ref.label
  · rw [if_pos hLabel]
    exact ⟨_, _, rfl⟩
  rw [if_neg hLabel]
  by_cases hLength : c.toNat ≠ ref.length
  · rw [if_pos hLength]
    exact ⟨_, _, rfl⟩
  rw [if_neg hLength]
  by_cases hMode : d ≠ ref.mode
  · rw [if_pos hMode]
    exact ⟨_, _, rfl⟩
  exfalso
  apply hOther
  have hTwo := cString_label hMem (not_not.mp hLabel)
  have hByte : c = UInt8.ofNat ref.length := by
    rw [← not_not.mp hLength]
    exact UInt8.ofNat_toNat.symm
  unfold entryHead
  rw [← hTwo, ← hByte, ← not_not.mp hMode]
  rfl

/- What is done behind the first bytes of an entry. -/
theorem binLine_head
    (hMem : ref ∈ vpdRef102)
    (rest : List UInt8) :
    binLine ref n op (entryHead ref ++ rest) =
      if ref.mode = modeX ∧ n = 0 ∧ rest.length < 2 then none
      else if
          ref.mode = modeX ∧ n = 0 ∧
            swapVersion (rest.getD 0 0) (rest.getD 1 0) ≠
              vpdVersion then
        some (false, op ++ lineHead ref, rest)
      else if rest.length < ref.length then none
      else
        some (true,
          op ++ lineHead ref ++
              lineData ref.mode (rest.take ref.length) ++
            lineEnd,
          rest.drop ref.length) := by
  rcases label_facts hMem with ⟨l₀, l₁, hLabel, hString, hByte⟩
  have hBuffer :
      entryHead ref ++ rest =
        l₀ :: l₁ :: UInt8.ofNat ref.length :: ref.mode ::
          rest := by
    unfold entryHead
    rw [hLabel]
    rfl
  rw [hBuffer]
  unfold binLine
  simp only [hString, hByte, ne_eq, not_true_eq_false,
    if_false]

theorem lengthOf_succ
    (refs : List VpdLayout) (j : Nat) :
    lengthOf (ref :: refs) (j + 1) =
      4 + ref.length + lengthOf refs j := by
  unfold lengthOf
  rw [List.take_succ_cons, List.map_cons, List.sum_cons]

theorem lengthOf_zero (refs : List VpdLayout) :
    lengthOf refs 0 = 0 := by
  simp [lengthOf]

/- What stops behind an entry stops in front of it. -/
theorem stops_cons
    {refs : List VpdLayout}
    {data rest : List UInt8}
    (hMem : ref ∈ vpdRef102)
    (hLen : data.length = ref.length)
    (hGood :
      ¬ OtherVersion n (ref :: refs)
        (entryHead ref ++ data ++ rest)) :
    Stops n (ref :: refs) (entryHead ref ++ data ++ rest) ↔
      Stops (n + 1) refs rest := by
  have hHead := length_entryHead hMem
  have hAll :
      (entryHead ref ++ data ++ rest).length =
        4 + ref.length + rest.length := by
    rw [List.length_append, List.length_append, hHead, hLen]
  have hDrop :
      ∀ i,
        (entryHead ref ++ data ++ rest).drop
            (4 + ref.length + i) = rest.drop i := by
    intro i
    have hFront :
        (entryHead ref ++ data).length = 4 + ref.length := by
      rw [List.length_append, hHead, hLen]
    rw [← hFront, ← List.drop_drop, List.drop_left]
  unfold Stops
  constructor
  · rintro (⟨j, hj, hEq⟩ | ⟨j, r, hGet, hRoom, hOther⟩ | hOther)
    · cases j with
      | zero =>
          rw [lengthOf_zero, hAll] at hEq
          omega
      | succ j =>
          rw [lengthOf_succ, hAll] at hEq
          exact Or.inl
            ⟨j, Nat.le_of_succ_le_succ hj, by omega⟩
    · cases j with
      | zero =>
          cases hGet
          exfalso
          apply hOther
          rw [lengthOf_zero, List.drop_zero,
            List.append_assoc, ← hHead, List.take_left]
      | succ j =>
          rw [lengthOf_succ, hAll] at hRoom
          rw [lengthOf_succ, hDrop] at hOther
          exact Or.inr
            (Or.inl ⟨j, r, hGet, by omega, hOther⟩)
    · exact absurd hOther hGood
  · rintro (⟨j, hj, hEq⟩ | ⟨j, r, hGet, hRoom, hOther⟩ | hOther)
    · refine Or.inl ⟨j + 1, Nat.succ_le_succ hj, ?_⟩
      rw [lengthOf_succ, hAll]
      omega
    · refine Or.inr (Or.inl ⟨j + 1, r, hGet, ?_, ?_⟩)
      · rw [lengthOf_succ, hAll]
        omega
      · rw [lengthOf_succ, hDrop]
        exact hOther
    · exact absurd hOther.1 (Nat.succ_ne_zero n)

/- Nothing stops in front of the end of an entry. -/
theorem not_stops
    {refs : List VpdLayout}
    {image : List UInt8}
    (hSome : image ≠ [])
    (hEnd : image.length < 4 + ref.length)
    (hHead :
      4 ≤ image.length → image.take 4 = entryHead ref)
    (hGood : ¬ OtherVersion n (ref :: refs) image) :
    ¬ Stops n (ref :: refs) image := by
  have hPos : 0 < image.length :=
    List.length_pos_of_ne_nil hSome
  rintro (⟨j, _, hEq⟩ | ⟨j, r, hGet, hRoom, hOther⟩ | hOther)
  · cases j with
    | zero =>
        rw [lengthOf_zero] at hEq
        omega
    | succ j =>
        rw [lengthOf_succ] at hEq
        omega
  · cases j with
    | zero =>
        cases hGet
        rw [lengthOf_zero] at hRoom hOther
        rw [List.drop_zero] at hOther
        exact hOther (hHead (by omega))
    | succ j =>
        rw [lengthOf_succ] at hRoom
        omega
  · exact hGood hOther

/- The loop ends inside exactly if something stops it. -/
theorem bin2CsvLoop_iff
    {refs : List VpdLayout}
    (hMem : ∀ ref ∈ refs, ref ∈ vpdRef102) :
    bin2CsvLoop refs n buffer.length op buffer ≠ none ↔
      Stops n refs buffer := by
  induction refs generalizing n op buffer with
  | nil =>
      unfold bin2CsvLoop
      by_cases hNone : (buffer.length : Int) = 0
      · rw [if_pos hNone]
        refine iff_of_true (fun h => by cases h)
          (Or.inl ⟨0, Nat.le_refl 0, ?_⟩)
        rw [lengthOf_zero]
        omega
      · rw [if_neg hNone]
        refine iff_of_false (fun h => h rfl) ?_
        rintro (⟨j, hj, hEq⟩ | ⟨j, r, hGet, _⟩ | hOther)
        · cases Nat.le_zero.mp hj
          rw [lengthOf_zero] at hEq
          omega
        · cases hGet
        · rcases hOther.2.1 with ⟨r, hGet, _⟩
          cases hGet
  | cons ref refs ih =>
      have hRef : ref ∈ vpdRef102 :=
        hMem ref List.mem_cons_self
      have hHead := length_entryHead hRef
      unfold bin2CsvLoop
      by_cases hNone : (buffer.length : Int) = 0
      · rw [if_pos hNone]
        refine iff_of_true (fun h => by cases h)
          (Or.inl ⟨0, Nat.zero_le _, ?_⟩)
        rw [lengthOf_zero]
        omega
      rw [if_neg hNone]
      have hSome : buffer ≠ [] := by
        rintro rfl
        exact hNone rfl
      simp only
      by_cases hShort : buffer.length < 4
      · rw [binLine_short hShort]
        refine iff_of_false (fun h => h rfl)
          (not_stops hSome (by omega) (fun h => by omega) ?_)
        rintro ⟨_, _, hSix, _⟩
        omega
      have hLong : 4 ≤ buffer.length := by omega
      by_cases hOther : buffer.take 4 ≠ entryHead ref
      · rcases @binLine_other ref n op buffer hRef hLong hOther
          with ⟨op', buffer', hLine⟩
        rw [hLine]
        refine iff_of_true (fun h => by cases h)
          (Or.inr (Or.inl ⟨0, ref, rfl, ?_, ?_⟩))
        · rw [lengthOf_zero]
          omega
        · rw [lengthOf_zero, List.drop_zero]
          exact hOther
      have hSame := not_not.mp hOther
      rcases hSplit : buffer.splitAt 4 with ⟨front, rest⟩
      have hBuffer : buffer = entryHead ref ++ rest := by
        rw [List.splitAt_eq] at hSplit
        cases hSplit
        rw [← hSame, List.take_append_drop]
      subst hBuffer
      have hTwo := (fixed_of_mem hRef).long
      have hLen :
          (entryHead ref ++ rest).length =
            4 + rest.length := by
        rw [List.length_append, hHead]
      have hVersion :
          OtherVersion n (ref :: refs)
              (entryHead ref ++ rest) ↔
            (ref.mode = modeX ∧ n = 0 ∧ 2 ≤ rest.length ∧
              swapVersion (rest.getD 0 0) (rest.getD 1 0) ≠
                vpdVersion) := by
        have hGet :
            ∀ i,
              (entryHead ref ++ rest).getD (4 + i) 0 =
                rest.getD i 0 := by
          intro i
          rw [List.getD_eq_getElem?_getD,
            List.getD_eq_getElem?_getD,
            List.getElem?_append_right (by omega), hHead,
            Nat.add_sub_cancel_left]
        have hFirst := hGet 0
        have hSecond := hGet 1
        unfold OtherVersion
        rw [hLen]
        simp only [Nat.add_zero, Nat.reduceAdd]
          at hFirst hSecond
        rw [hFirst, hSecond]
        constructor
        · rintro ⟨hZero, ⟨r, hGet, hMode⟩, hSix, hOther⟩
          cases hGet
          exact ⟨hMode, hZero, by omega, hOther⟩
        · rintro ⟨hMode, hZero, hLong, hOther⟩
          exact
            ⟨hZero, ⟨ref, rfl, hMode⟩, by omega, hOther⟩
      rw [binLine_head hRef]
      by_cases hBad :
          ref.mode = modeX ∧ n = 0 ∧ 2 ≤ rest.length ∧
            swapVersion (rest.getD 0 0) (rest.getD 1 0) ≠
              vpdVersion
      · rw [if_neg (fun h => by omega),
          if_pos ⟨hBad.1, hBad.2.1, hBad.2.2.2⟩]
        exact iff_of_true (fun h => by cases h)
          (Or.inr (Or.inr (hVersion.mpr hBad)))
      have hGood := fun h => hBad (hVersion.mp h)
      by_cases hEnd : rest.length < ref.length
      · have hNot :=
          not_stops hSome (by omega) (fun _ => hSame) hGood
        refine iff_of_false (fun h => h ?_) hNot
        by_cases hFew :
            ref.mode = modeX ∧ n = 0 ∧ rest.length < 2
        · rw [if_pos hFew]
        · rw [if_neg hFew, if_neg, if_pos hEnd]
          rintro ⟨hMode, hZero, hOther⟩
          have hMany : ¬ rest.length < 2 :=
            fun h => hFew ⟨hMode, hZero, h⟩
          exact hBad ⟨hMode, hZero, by omega, hOther⟩
      · rw [if_neg (fun h => by omega),
          if_neg (fun h =>
            hBad ⟨h.1, h.2.1, by omega, h.2.2⟩),
          if_neg hEnd]
        have hRest :
            rest =
              rest.take ref.length ++ rest.drop ref.length :=
          (List.take_append_drop _ _).symm
        have hLess :
            ((entryHead ref ++ rest).length : Int) -
                (4 + ref.length) =
              (rest.drop ref.length).length := by
          rw [hLen, List.length_drop]
          omega
        simp only [hLess]
        rw [ih fun r h => hMem r (List.mem_cons_of_mem _ h)]
        have hCons :=
          @stops_cons ref n refs (rest.take ref.length)
            (rest.drop ref.length) hRef
            (by rw [List.length_take]; omega)
        rw [List.append_assoc, ← hRest] at hCons
        exact (hCons hGood).symm

/- When `bin_2_csv` is safe on a buffer. -/
theorem binSafe_iff
    (fs : Int) (buffer : ByteMem) :
    BinSafe fs buffer ↔ BinFit fs buffer := by
  unfold BinSafe BinFit
  by_cases hNeg : fs < 0
  · refine iff_of_false ?_ fun h => by omega
    have hNone : bytesOf fs buffer = [] := by
      have hZero : fs.toNat = 0 := by omega
      unfold bytesOf
      rw [hZero, ByteMem.window_zero]
    rintro ⟨ok, text, hSome, _⟩
    rw [hNone] at hSome
    have hOther : fs ≠ 0 := by omega
    unfold bin2Csv vpdRef102 bin2CsvLoop at hSome
    rw [if_neg hOther] at hSome
    cases hSome
  · have hLen : fs = (bytesOf fs buffer).length := by
      unfold bytesOf
      rw [ByteMem.length_window]
      omega
    have hIff :=
      @bin2CsvLoop_iff 0 [] (bytesOf fs buffer) vpdRef102
        fun _ h => h
    rw [← hLen] at hIff
    constructor
    · rintro ⟨ok, text, hSome, _⟩
      refine ⟨by omega, hIff.mp ?_⟩
      unfold bin2Csv at hSome
      rw [hSome]
      intro hSame
      cases hSame
    · rintro ⟨_, hStops⟩
      rcases Option.ne_none_iff_exists'.mp
        (hIff.mpr hStops) with ⟨⟨ok, text⟩, hSome⟩
      refine ⟨ok, text, hSome, ?_⟩
      rintro rfl
      have hPrint :
          bin2Csv (bytesOf fs buffer).length
              (bytesOf fs buffer) = some (true, text) := by
        rw [← hLen]
        exact hSome
      rcases bin2Csv_true hPrint with
        ⟨es, hRefs, hSized, hImage, _, hVersion⟩
      exact ⟨es, hRefs, hSized, hImage, hVersion⟩

end Images

/-
  When the converters stay inside their tables and buffers,
  and refuse what is malformed: on which files, and on which
  buffers of which size.
-/
theorem converters_safe_iff
    (file : List UInt8)
    (fs : Int)
    (buffer : ByteMem) :
    (CsvSafe file ↔ CsvFit file) ∧
      (BinSafe fs buffer ↔ BinFit fs buffer) :=
  ⟨csvSafe_iff file, binSafe_iff fs buffer⟩

------------------------------------------------------------
-- A Blank Line and a Byte Too Many
------------------------------------------------------------

/- A whole image with a zero behind it. -/
def longBuffer : ByteMem :=
  ByteMem.store (fun _ => 0) 0
    (partImage (List.replicate 7 0))

theorem converters_not_safe :
    ¬ CsvSafe [newline] ∧ ¬ BinSafe 102 longBuffer := by
  constructor
  · rintro ⟨ok, st, hSome, _⟩
    have hNone : csv2Bin [newline] = none := rfl
    rw [hNone] at hSome
    cases hSome
  · rintro ⟨ok, text, hSome, _⟩
    have hNone :
        bin2Csv 102 (bytesOf 102 longBuffer) = none := by
      decide +kernel
    rw [hNone] at hSome
    cases hSome

end Vpd
