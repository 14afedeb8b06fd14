import GenWqe.Vpd.RoundTrip

/-
  The checksum between two programs: what `genwqe_vpdconv`
  puts at the end of an image, and what `genwqe_vpdupdate`
  asks of one.

  Key definitions include:
    * `vpdconv`, `updateVpd`

  Main results:
    * `image_of_fileVerdict`
    * `vpdconv_accepted`
-/

------------------------------------------------------------
-- The Programs
------------------------------------------------------------

namespace Vpd

open Crc

/-
  `main` of `genwqe_vpdconv` without `--reverse`: the image
  that is written, or none if it exits with a failure;
  `--crcoff` clears `make_crc`.
-/
def vpdconv (makeCrc : Bool) (file : List UInt8) :
    Option (Option (List UInt8)) :=
  match csv2Bin file with
  | none => none
  | some (false, _) => some none
  | some (true, st) =>
      let size := st.buffer.length
      if st.crc32 ≠ 0 ∧ makeCrc then
        let front := st.buffer.take (size - 4)
        let crc32 := genwqeCrc32Gen front crc32InitSeed
        some (some (front ++ be32 crc32))
      else some (some st.buffer)

/-
  `__update_vpd` of `genwqe_vpdupdate`: whether what it reads
  from a file is written to the card.
-/
def updateVpd (file : List UInt8) : Option Bool :=
  let vpd := file.take vpdSize
  if vpd.length = vpdSize then
    if genwqeCrc32Gen vpd crc32InitSeed = 0 then
      (bin2Csv vpdSize vpd).map Prod.fst
    else some false
  else some false

------------------------------------------------------------
-- The Image
------------------------------------------------------------

/- What is accepted consists of the entries that were left. -/
theorem image_of_fileVerdict
    {k : Nat}
    {image₀ image : List UInt8}
    {lines : List (List UInt8)}
    (hCount : k ≤ linesInVpd)
    (hAll : fileVerdict k image₀ lines = some (some image)) :
    ∃ es,
      es.map Prod.fst = vpdRef102.drop k ∧ Sized es ∧
      image = image₀ ++ imageOf es ∧
      (k = 0 → ∀ e, es[0]? = some e → e.1.mode = modeX →
        GoodVersion 0 e.2) := by
  induction lines generalizing k image₀ with
  | nil =>
      unfold fileVerdict at hAll
      have hEnd : linesInVpd = k := by
        by_contra hFew
        rw [if_neg hFew] at hAll
        cases hAll
      rw [if_pos hEnd] at hAll
      cases hAll
      refine ⟨[], ?_, List.forall_mem_nil _, ?_, ?_⟩
      · exact (List.drop_eq_nil_of_le (Nat.le_of_eq hEnd)).symm
      · simp [imageOf]
      · intro _ e hNone
        cases hNone
  | cons line lines ih =>
      unfold fileVerdict at hAll
      cases hVerdict : lineVerdict k line with
      | outside =>
          rw [hVerdict] at hAll
          cases hAll
      | refused =>
          rw [hVerdict] at hAll
          cases hAll
      | ignored =>
          rw [hVerdict] at hAll
          exact ih hCount hAll
      | entry bytes =>
          rw [hVerdict] at hAll
          rcases lineVerdict_entry hVerdict with
            ⟨ref, field, hRef, hFits, rfl⟩
          have hIn : k < linesInVpd :=
            (List.getElem?_eq_some_iff.mp hRef).1
          rcases ih hIn hAll with
            ⟨es, hRefs, hSized, hImage, _⟩
          refine ⟨(ref, payload ref field) :: es,
            ?_, ?_, ?_, ?_⟩
          · rw [List.map_cons, hRefs]
            rcases List.getElem?_eq_some_iff.mp hRef with
              ⟨_, hGet⟩
            rw [← hGet]
            exact (List.drop_eq_getElem_cons hIn).symm
          · intro e hE
            rcases List.mem_cons.mp hE with rfl | hE
            · exact length_payload hFits
            · exact hSized e hE
          · rw [hImage, List.append_assoc]
            rfl
          · rintro rfl e hE hMode
            cases hE
            unfold FieldFits at hFits
            rw [if_neg (by
              show ref.mode ≠ modeA
              rw [show ref.mode = modeX from hMode]
              decide)] at hFits
            exact hFits.2

/- The last entry is the checksum. -/
theorem entries_last
    {es : List (VpdLayout × List UInt8)}
    (hRefs : es.map Prod.fst = vpdRef102) :
    ∃ front data,
      es = front ++ [(⟨[0x43, 0x53], 4, modeX⟩, data)] ∧
        front.length = 9 := by
  have hLen : es.length = 10 := by
    rw [← List.length_map Prod.fst, hRefs]
    rfl
  rcases List.eq_nil_or_concat es with rfl | ⟨front, e, rfl⟩
  · cases hLen
  · have hNine : front.length = 9 := by
      rw [List.length_concat] at hLen
      omega
    have hLast : e.1 = ⟨[0x43, 0x53], 4, modeX⟩ := by
      have hGet := congrArg (·[9]?) hRefs
      simp only [List.concat_eq_append, List.map_append,
        List.map_cons, List.map_nil] at hGet
      rw [List.getElem?_append_right (by
        rw [List.length_map, hNine]), List.length_map, hNine]
        at hGet
      exact Option.some.inj hGet
    refine ⟨front, e.2, ?_, hNine⟩
    rw [List.concat_eq_append, ← hLast]

/- The image with another checksum at its end. -/
theorem imageOf_checksum
    {front : List (VpdLayout × List UInt8)}
    {ref : VpdLayout}
    {data crc : List UInt8}
    (hLen : data.length = 4) :
    (imageOf (front ++ [(ref, data)])).take
          ((imageOf (front ++ [(ref, data)])).length - 4) ++
        crc =
      imageOf (front ++ [(ref, crc)]) := by
  unfold imageOf
  rw [List.flatMap_append, List.flatMap_append]
  simp only [List.flatMap_cons, List.flatMap_nil,
    List.append_nil]
  rw [← List.append_assoc, List.length_append, hLen,
    Nat.add_sub_cancel, List.take_left, List.append_assoc]

theorem length_imageOf
    {es : List (VpdLayout × List UInt8)}
    (hRefs : es.map Prod.fst = vpdRef102)
    (hSized : Sized es) : (imageOf es).length = vpdSize := by
  have hMem : ∀ e ∈ es, e.1 ∈ vpdRef102 := by
    intro e hE
    rw [← hRefs]
    exact List.mem_map_of_mem hE
  have hEach :
      es.map (fun e => (entryHead e.1 ++ e.2).length) =
        vpdRef102.map (4 + ·.length) := by
    rw [← hRefs, List.map_map]
    apply List.map_congr_left
    intro e hE
    rw [List.length_append, length_entryHead (hMem e hE),
      hSized e hE]
    rfl
  unfold imageOf
  rw [List.length_flatMap, hEach]
  rfl

/- An image of the entries with the residue zero is good. -/
theorem updateVpd_imageOf
    {es : List (VpdLayout × List UInt8)}
    (hRefs : es.map Prod.fst = vpdRef102)
    (hSized : Sized es)
    (hVersion :
      ∀ e, es[0]? = some e → e.1.mode = modeX →
        GoodVersion 0 e.2)
    (hResidue :
      genwqeCrc32Gen (imageOf es) crc32InitSeed = 0) :
    updateVpd (imageOf es) = some true := by
  have hLen := length_imageOf hRefs hSized
  have hAll : (imageOf es).take vpdSize = imageOf es :=
    List.take_of_length_le (Nat.le_of_eq hLen)
  have hPrint := bin2Csv_imageOf hRefs hSized hVersion
  rw [hLen] at hPrint
  unfold updateVpd
  simp only [hAll, hLen, hResidue, if_true, hPrint,
    Option.map_some]

/- One burst is found. -/
theorem updateVpd_burst
    {image other : List UInt8}
    (hLen : image.length = vpdSize)
    (hResidue : genwqeCrc32Gen image crc32InitSeed = 0)
    (hBurst :
      Burst 32 (imageBits image) (imageBits other)) :
    updateVpd other = some false := by
  have hBits :
      (imageBits image).length = (imageBits other).length := by
    rcases hBurst.within with
      ⟨before, inA, inB, behind, hA, hB, hSame, _⟩
    rw [hA, hB]
    simp only [List.length_append, hSame]
  rw [length_imageBits, length_imageBits] at hBits
  have hAll : other.take vpdSize = other :=
    List.take_of_length_le (by omega)
  have hOther :=
    genwqeCrc32Gen_burst hBurst crc32InitSeed
  rw [hResidue] at hOther
  unfold updateVpd
  simp only [hAll]
  rw [if_pos (by omega), if_neg hOther.symm]

/-
  For every file that is accepted, the image that is written
  with its checksum has the residue zero and is accepted by
  the update, which finds every burst of at most 32 bits.
-/
theorem vpdconv_accepted
    (file : List UInt8)
    (st : CsvState)
    (hFile : csv2Bin file = some (true, st)) :
    ∃ image,
      vpdconv true file = some (some image) ∧
      genwqeCrc32Gen image crc32InitSeed = 0 ∧
      updateVpd image = some true ∧
      ∀ other,
        Burst 32 (imageBits image) (imageBits other) →
          updateVpd other = some false := by
  have hResult := csv2Bin_result file
  rw [hFile] at hResult
  generalize hVerdict :
    fileVerdict 0 [] (fgetsAll file) = verdict at hResult
  cases hResult with
  | @accepted _ image hCollected =>
      rcases image_of_fileVerdict (Nat.zero_le _) hVerdict with
        ⟨es, hRefs, hSized, rfl, hVersion⟩
      rw [List.nil_append] at hCollected
      have hGood := hVersion rfl
      have hWritten :
          ∃ es',
            es'.map Prod.fst = vpdRef102 ∧ Sized es' ∧
            (∀ e, es'[0]? = some e → e.1.mode = modeX →
              GoodVersion 0 e.2) ∧
            vpdconv true file = some (some (imageOf es')) ∧
            genwqeCrc32Gen (imageOf es') crc32InitSeed = 0 := by
        by_cases hZero : st.crc32 = 0
        · refine ⟨es, hRefs, hSized, hGood, ?_, ?_⟩
          · unfold vpdconv
            rw [hFile]
            simp only [hZero, hCollected.buffer]
            rfl
          · rw [← hCollected.crc32]
            exact hZero
        · rcases entries_last hRefs with
            ⟨front, data, rfl, hNine⟩
          have hData : data.length = 4 :=
            hSized _
              (List.mem_append_right _ List.mem_cons_self)
          have hImage :=
            fun crc =>
              @imageOf_checksum front
                ⟨[0x43, 0x53], 4, modeX⟩ data crc hData
          generalize hFront :
            (imageOf
                (front ++ [(⟨[0x43, 0x53], 4, modeX⟩, data)])
              ).take
              ((imageOf
                  (front ++
                    [(⟨[0x43, 0x53], 4, modeX⟩, data)])
                ).length - 4) = bytes at hImage
          refine
            ⟨front ++
              [(⟨[0x43, 0x53], 4, modeX⟩,
                be32 (genwqeCrc32Gen bytes crc32InitSeed))],
              ?_, ?_, ?_, ?_, ?_⟩
          · rw [List.map_append] at hRefs ⊢
            exact hRefs
          · intro e hE
            rcases List.mem_append.mp hE with hE | hE
            · exact hSized e (List.mem_append_left _ hE)
            · cases List.mem_singleton.mp hE
              rfl
          · intro e hE
            rw [List.getElem?_append_left (by omega)] at hE
            apply hGood e
            rw [List.getElem?_append_left (by omega)]
            exact hE
          · unfold vpdconv
            rw [hFile]
            simp only [ne_eq, hZero, not_false_eq_true,
              hCollected.buffer, hFront, true_and, if_true]
            rw [hImage]
          · rw [← hImage, genwqeCrc32Gen_append,
              genwqeCrc32Gen_self]
      rcases hWritten with
        ⟨es', hRefs', hSized', hGood', hConv, hResidue⟩
      have hLen := length_imageOf hRefs' hSized'
      exact ⟨_, hConv, hResidue,
        updateVpd_imageOf hRefs' hSized' hGood' hResidue,
        fun other hBurst =>
          updateVpd_burst hLen hResidue hBurst⟩

theorem vpdconv_accepted_part :
    ∃ st,
      csv2Bin (partText [0x31, 0x32, 0x41, 0, 0, 0, 0]) =
          some (true, st) ∧
        ∃ image,
          vpdconv true
              (partText [0x31, 0x32, 0x41, 0, 0, 0, 0]) =
            some (some image) ∧
          genwqeCrc32Gen image crc32InitSeed = 0 ∧
          updateVpd image = some true ∧
          ∀ other,
            Burst 32 (imageBits image) (imageBits other) →
              updateVpd other = some false := by
  rcases @bin2Csv_part [0x31, 0x32, 0x41, 0, 0, 0, 0] rfl with
    ⟨_, hSized, hVersion, _⟩
  rcases csv2Bin_linesOf rfl hSized hVersion with
    ⟨st, hFile, _⟩
  exact ⟨st, hFile, vpdconv_accepted _ st hFile⟩

end Vpd
