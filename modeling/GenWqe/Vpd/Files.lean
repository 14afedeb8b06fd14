import GenWqe.Vpd.Lines

/-
  What a whole file means to `csv_2_bin`: the verdicts of its
  lines one after the other.

  Key definitions include:
    * `fileVerdict`, `FileResult`

  Main results:
    * `length_of_mem_fgetsAll`
    * `csv2Bin_result`
-/

------------------------------------------------------------
-- The Lines of a File
------------------------------------------------------------

namespace Vpd

theorem length_of_mem_fgetsFrom
    {read file line : List UInt8}
    (hRead : read.length + 1 < maxLine)
    (hMem : line ∈ fgetsFrom read file) :
    line.length < maxLine := by
  induction file generalizing read with
  | nil =>
      unfold fgetsFrom at hMem
      split at hMem
      · cases hMem
      · cases List.mem_singleton.mp hMem
        omega
  | cons c file ih =>
      unfold fgetsFrom at hMem
      split at hMem
      · rcases List.mem_cons.mp hMem with rfl | hMem
        · rw [List.length_append, List.length_singleton]
          exact hRead
        · exact ih (by decide) hMem
      · rename_i hStop
        apply ih _ hMem
        rw [List.length_append, List.length_singleton]
        unfold maxLine at *
        omega

/- A line fits the line buffer. -/
theorem length_of_mem_fgetsAll
    {file line : List UInt8}
    (hMem : line ∈ fgetsAll file) :
    line.length < maxLine :=
  length_of_mem_fgetsFrom (by decide) hMem

------------------------------------------------------------
-- A File
------------------------------------------------------------

/-
  What the lines behind `k` entries are: an access outside, an
  error, or an image.
-/
def fileVerdict (k : Nat) (image : List UInt8) :
    List (List UInt8) → Option (Option (List UInt8))
  | [] => some (if linesInVpd = k then some image else none)
  | line :: lines =>
    match lineVerdict k line with
    | .outside => none
    | .refused => some none
    | .ignored => fileVerdict k image lines
    | .entry bytes =>
        fileVerdict (k + 1) (image ++ bytes) lines

/- The result of `csv_2_bin` for a verdict. -/
inductive FileResult :
    Option (Option (List UInt8)) →
      Option (Bool × CsvState) → Prop
  | outside : FileResult none none
  | refused {st : CsvState} :
      FileResult (some none) (some (false, st))
  | accepted {st : CsvState} {image : List UInt8} :
      Collected linesInVpd image st →
      FileResult (some (some image)) (some (true, st))

theorem lineVerdict_entry
    {k : Nat}
    {line bytes : List UInt8}
    (hEntry : lineVerdict k line = .entry bytes) :
    ∃ ref field,
      vpdRef102[k]? = some ref ∧ FieldFits k ref field ∧
        bytes = entryHead ref ++ payload ref field := by
  unfold lineVerdict at hEntry
  split at hEntry
  · cases hEntry
  · exact fieldsVerdict_entry hEntry

theorem csvLines_result
    {k : Nat}
    {image : List UInt8}
    {st : CsvState}
    {lines : List (List UInt8)}
    (hSt : Collected k image st)
    (hRoom : image.length ≤ 17 * k)
    (hCount : k ≤ linesInVpd)
    (hLines : ∀ line ∈ lines, line.length < maxLine) :
    FileResult (fileVerdict k image lines)
      (csvLines st lines) := by
  induction lines generalizing k image st with
  | nil =>
      unfold fileVerdict csvLines
      rw [hSt.goodLines]
      by_cases hAll : linesInVpd = k
      · rw [if_pos hAll, decide_eq_true hAll]
        exact .accepted (hAll ▸ hSt)
      · rw [if_neg hAll, decide_eq_false hAll]
        exact .refused
  | cons line lines ih =>
      have hRest :
          ∀ line ∈ lines, line.length < maxLine :=
        fun l h => hLines l (List.mem_cons_of_mem _ h)
      have hResult :=
        csvLine_result hSt (hLines line List.mem_cons_self) (by
          have hTen : linesInVpd = 10 := rfl
          unfold vpdBufferSize
          omega)
      unfold fileVerdict csvLines
      generalize hVerdict : lineVerdict k line = verdict at *
      generalize csvLine st line = result at hResult ⊢
      cases hResult with
      | outside => exact .outside
      | refused => exact .refused
      | ignored hSame => exact ih hSame hRoom hCount hRest
      | @entry st' bytes hMore =>
          rcases lineVerdict_entry hVerdict with
            ⟨ref, field, hRef, hFits, rfl⟩
          have hLen := length_entry (fixed_of_get hRef) hFits
          have hIn : k < linesInVpd :=
            (List.getElem?_eq_some_iff.mp hRef).1
          have hShort := (fixed_of_get hRef).short
          apply ih hMore _ hIn hRest
          rw [List.length_append, hLen]
          omega

theorem Collected.start :
    Collected 0 [] CsvState.start :=
  ⟨rfl, rfl, rfl, rfl⟩

/- `csv_2_bin` does with a file what its verdict says. -/
theorem csv2Bin_result (file : List UInt8) :
    FileResult (fileVerdict 0 [] (fgetsAll file))
      (csv2Bin file) :=
  csvLines_result .start (Nat.le_refl 0) (Nat.zero_le _)
    fun _ h => length_of_mem_fgetsAll h

end Vpd
