import GenWqe.Deflate.Output
import GenWqe.Formats.HeaderFields

/-
  A GZIP header that deflate writes, read back by inflate over
  any calls.

  Key definitions include:
    * `GzHeader` and `GzHeader.bytes`
    * `ReaderFits` and `HeaderYield`
    * `HeaderTrip`

  Main results:
    * `header_trip_iff`
-/

namespace Zedc

open ByteMem

------------------------------------------------------------
-- The Header to Write
------------------------------------------------------------

/- A string of C, without its zero byte. -/
structure CString where
  bytes : List UInt8
  noZero : (0 : UInt8) ∉ bytes

/- The bytes of a string that may be missing. -/
def textOf (str : Option CString) : List UInt8 :=
  (str.map CString.bytes).getD []

/-
  `struct gzedc_header_s` as the caller of deflate fills it
  in; `extra` holds `extra_len` bytes.
-/
structure GzHeader where
  time : UInt64
  xflags : Int
  os : Int
  extra : Option (List UInt8)
  name : Option CString
  comment : Option CString

/- What `deflate_add_header` takes from it. -/
def GzHeader.head (h : GzHeader) : GzipHead where
  time := h.time.toUInt32
  xflags := UInt8.ofInt h.xflags
  os := UInt8.ofInt h.os
  extra := h.extra
  name := h.name.map CString.bytes
  comment := h.comment.map CString.bytes

def GzHeader.flg (h : GzHeader) : UInt8 :=
  gzipFlg h.head

/- A string field as RFC 1952 lays it out. -/
def stringBytes (str : Option CString) : List UInt8 :=
  if textOf str = [] then [] else textOf str ++ [0]

/- The optional fields. -/
def GzHeader.fields (h : GzHeader) : List UInt8 :=
  extraField h.head ++
    (stringBytes h.name ++
      (stringBytes h.comment ++ hcrcField h.head))

/- The header as RFC 1952 lays it out. -/
def GzHeader.bytes (h : GzHeader) : List UInt8 :=
  gzipHeader h.flg h.head.time h.head.os h.fields

/-
  `deflate_add_header` does not refuse the header, which has
  at most 255 bytes.
-/
structure GzHeader.Written (h : GzHeader) : Prop where
  ok : gzipHeadTooLong h.head = false
  length : h.bytes.length ≤ 255

theorem length_gzipHeader
    (flg os : UInt8)
    (time : UInt32)
    (fields : List UInt8) :
    (gzipHeader flg time os fields).length =
      fields.length + 10 := by
  unfold gzipHeader
  simp
  omega

theorem length_stringBytes (str : Option CString) :
    (textOf str).length ≤ (stringBytes str).length := by
  unfold stringBytes
  split
  · rename_i hNil
    rw [hNil]
  · rw [List.length_append]
    omega

section Fields

variable {h : GzHeader}

/- No field is longer than the FIFO. -/
theorem GzHeader.Written.fields_lt
    (hWritten : h.Written) :
    (extraField h.head).length +
      (stringBytes h.name).length +
      (stringBytes h.comment).length < 256 := by
  have hLength := hWritten.length
  unfold GzHeader.bytes GzHeader.fields at hLength
  rw [length_gzipHeader] at hLength
  simp only [List.length_append] at hLength
  omega

theorem strLen_eq
    {str : Option CString}
    (hLt : (textOf str).length < 256) :
    strLen (str.map CString.bytes) =
      (textOf str).length :=
  Nat.mod_eq_of_lt (by
    change (textOf str).length < 2 ^ 32
    omega)

theorem stringField_eq
    {str : Option CString}
    (hLt : (textOf str).length < 256) :
    stringField (str.map CString.bytes) =
      stringBytes str := by
  unfold stringField stringBytes
  rw [strLen_eq hLt]
  by_cases hNil : textOf str = []
  · rw [if_neg (by rw [hNil]; simp), if_pos hNil]
  · rw [if_pos (by simpa using hNil), if_neg hNil]
    rfl

theorem GzHeader.Written.name_lt
    (hWritten : h.Written) :
    (textOf h.name).length < 256 := by
  have hLt := hWritten.fields_lt
  have hName := length_stringBytes h.name
  omega

theorem GzHeader.Written.comment_lt
    (hWritten : h.Written) :
    (textOf h.comment).length < 256 := by
  have hLt := hWritten.fields_lt
  have hComment := length_stringBytes h.comment
  omega

theorem GzHeader.Written.extra_lt
    (hWritten : h.Written)
    {x : List UInt8}
    (hExtra : h.extra = some x) :
    x.length < 256 := by
  have hLt := hWritten.fields_lt
  have hField :
      (extraField h.head).length = x.length + 2 := by
    unfold extraField GzHeader.head
    rw [hExtra]
    simp
  omega

/- What is pushed for the header is its layout. -/
theorem contents_deflateAddHeader
    (hWritten : h.Written)
    (now : UInt32)
    {w : DeflStream}
    (hFormat : w.format = .gzip)
    (hHead : w.gzipHead = some h.head)
    (hEmpty : w.outFifo.contents = []) :
    (deflateAddHeader now w).1 = false ∧
      (deflateAddHeader now w).2.outFifo.contents =
        h.bytes := by
  have hBytes : formatHeader now w = h.bytes := by
    unfold formatHeader
    rw [hFormat, hHead]
    unfold GzHeader.bytes GzHeader.fields
    rw [← stringField_eq hWritten.name_lt,
      ← stringField_eq hWritten.comment_lt]
    simp only [List.append_assoc]
    rfl
  have hOk : (deflateAddHeader now w).1 = false := by
    unfold deflateAddHeader
    rw [hFormat, hHead]
    simp only [hWritten.ok]
    rfl
  rcases deflateAddHeader_spec now w hEmpty
    (by rw [hBytes]; exact hWritten.length) hOk with
    ⟨f, hEq, hContents⟩
  refine ⟨hOk, ?_⟩
  rw [hEq]
  exact hContents.trans hBytes

/- The flags tell which fields are there. -/
theorem flg_extra (h : GzHeader) :
    h.flg &&& 0x04 ≠ 0 ↔ h.extra ≠ none := by
  unfold GzHeader.flg gzipFlg
  have hSome : h.head.extra.isSome = true ↔ h.extra ≠ none :=
    Option.isSome_iff_ne_none
  rw [← hSome]
  split_ifs <;> simp_all <;> decide

theorem flg_name
    (hWritten : h.Written) :
    h.flg &&& 0x08 ≠ 0 ↔ textOf h.name ≠ [] := by
  have hLen :
      strLen h.head.name ≠ 0 ↔ textOf h.name ≠ [] := by
    unfold GzHeader.head
    rw [strLen_eq hWritten.name_lt, ne_eq,
      List.length_eq_zero_iff]
  rw [← hLen]
  unfold GzHeader.flg gzipFlg
  split_ifs <;> simp_all <;> decide

theorem flg_comment
    (hWritten : h.Written) :
    h.flg &&& 0x10 ≠ 0 ↔ textOf h.comment ≠ [] := by
  have hLen :
      strLen h.head.comment ≠ 0 ↔ textOf h.comment ≠ [] := by
    unfold GzHeader.head
    rw [strLen_eq hWritten.comment_lt, ne_eq,
      List.length_eq_zero_iff]
  rw [← hLen]
  unfold GzHeader.flg gzipFlg
  split_ifs <;> simp_all <;> decide

theorem flg_hcrc (h : GzHeader) :
    hcrcField h.head =
      if h.flg &&& 0x02 ≠ 0 then [0xde, 0xef] else [] := by
  have hFlag :
      h.flg &&& 0x02 ≠ 0 ↔ h.head.xflags &&& 0x02 ≠ 0 := by
    unfold GzHeader.flg gzipFlg
    split_ifs <;> simp_all <;> decide
  unfold hcrcField
  exact if_congr hFlag.symm rfl rfl

end Fields

------------------------------------------------------------
-- The Header Read Back
------------------------------------------------------------

/- What the fixed part leaves in the reader's structure. -/
def startHead
    (h : GzHeader)
    (r : GzedcHeader) : GzedcHeader :=
  { r with
    time := h.time.toNat % 2 ^ 32
    xflags := 0x04
    os := h.head.os }

def putExtra
    (h : GzHeader)
    (r : GzedcHeader) : GzedcHeader :=
  match h.extra with
  | none => r
  | some x =>
      HeaderBuffer.extra.put 0 x
        (setExtraLen (UInt16.ofNat x.length) r)

def putString
    (B : HeaderBuffer)
    (str : Option CString)
    (r : GzedcHeader) : GzedcHeader :=
  if textOf str = [] then r
  else B.put 0 (textOf str ++ [0]) r

/- The reader's structure behind the whole header. -/
def readHead
    (h : GzHeader)
    (r : GzedcHeader) : GzedcHeader :=
  finishHead h.flg
    (putString HeaderBuffer.comment h.comment
      (putString HeaderBuffer.name h.name
        (putExtra h (startHead h r))))

/- The reader's buffers take each field that is there. -/
structure HeaderRoom
    (h : GzHeader)
    (g : Option GzedcHeader) : Prop where
  extra :
    ∀ x, h.extra = some x →
      HeaderBuffer.extra.Room x.length g
  name :
    textOf h.name ≠ [] →
      HeaderBuffer.name.Room ((textOf h.name).length + 1) g
  comment :
    textOf h.comment ≠ [] →
      HeaderBuffer.comment.Room
        ((textOf h.comment).length + 1) g

/- Changes that leave the buffer `B` alone keep its room. -/
theorem HeaderBuffer.room_map
    {B : HeaderBuffer}
    {n : Nat}
    {g : Option GzedcHeader}
    {f : GzedcHeader → GzedcHeader}
    (hBuf : ∀ r, B.buf (f r) = B.buf r)
    (hMax : ∀ r, B.max (f r) = B.max r)
    (hRoom : B.Room n g) :
    B.Room n (g.map f) := by
  intro r' hSome
  rcases Option.map_eq_some_iff.mp hSome with ⟨r, hG, rfl⟩
  rw [hBuf, hMax]
  exact hRoom r hG

section Reading

variable {h : GzHeader} {p : Prefx} {rest : List UInt8}

theorem bytes_sum (x : UInt32) :
    x.toUInt8.toNat + (x >>> 8).toUInt8.toNat * 2 ^ 8 +
        (x >>> 16).toUInt8.toNat * 2 ^ 16 +
        (x >>> 24).toUInt8.toNat * 2 ^ 24 =
      x.toNat := by
  have hLt := x.toNat_lt
  simp only [UInt32.toNat_toUInt8, UInt32.toNat_shiftRight,
    UInt32.reduceToNat, Nat.shiftRight_eq_div_pow,
    Nat.reduceMod, Nat.reducePow]
  omega

variable (rest) in
/- The fixed part leads to the check for any flag. -/
theorem gzipBytes_start
    (h : GzHeader)
    (hIdx : p.idx = 0)
    (hState : p.headerState = .headerStart) :
    ∃ q,
      gzipBytes (h.bytes ++ rest) p =
          gzipResume (h.fields ++ rest)
            (gzipHeaderLoop h.head.os 15 q
              .flagsCheckEmpty) ∧
        Past q h.flg ∧
        q.gzipHead = p.gzipHead.map (startHead h) := by
  let nine : List UInt8 :=
    [0x1f, 0x8b, 0x08, h.flg] ++ le32 h.head.time ++ [0x04]
  have hSplit :
      h.bytes ++ rest =
        nine ++ (h.head.os :: (h.fields ++ rest)) := by
    unfold GzHeader.bytes gzipHeader
    simp [nine]
  have hNine : p.idx + nine.length ≤ 9 := by
    rw [hIdx]
    exact Nat.le_refl 9
  rw [hSplit, gzipBytes_fixed hNine, gzipBytes_cons, hIdx]
  let q : Prefx :=
    { p with
      idx := 9
      bytes :=
        (p.bytes.store 0 nine).store 9 [h.head.os]
      headerState := .headerStart }
  have hParse :
      inflateRemGzipHeader h.head.os
          (Prefx.collect h.head.os
            { p with
              idx := 0 + nine.length
              bytes := p.bytes.store 0 nine }) =
        gzipHeaderLoop h.head.os 16 q .headerStart := by
    unfold inflateRemGzipHeader Prefx.collect
    change (if (9 : Nat) < 9 then _ else _) = _
    rw [if_neg (by decide)]
    change gzipHeaderLoop h.head.os 16 _ p.headerState = _
    rw [hState]
    rfl
  rw [hParse]
  have hBytes : q.bytes = p.bytes.store 0 (nine ++ [h.head.os]) :=
    store_store_append p.bytes 0 nine [h.head.os]
  have hAt :
      ∀ i < 10,
        q.bytes i = (nine ++ [h.head.os]).getD i 0 := by
    intro i hLt
    rw [hBytes, store_inside _ (Nat.zero_le _)
      (by simpa [nine] using hLt), Nat.sub_zero]
  have hStep :
      gzipHeaderStep h.head.os q .headerStart =
        some (.goOn
          (q.setHead fun r =>
            { r with
              time :=
                (q.bytes 4).toNat + (q.bytes 5).toNat * 2 ^ 8 +
                  (q.bytes 6).toNat * 2 ^ 16 +
                  (q.bytes 7).toNat * 2 ^ 24
              xflags := q.bytes 8
              os := q.bytes 9 })
          .flagsCheckEmpty) := by
    simp only [gzipHeaderStep]
    rw [hAt 0 (by decide), hAt 1 (by decide),
      hAt 2 (by decide), if_neg]
    simp [nine]
  refine ⟨q.setHead fun r =>
      { r with
        time :=
          (q.bytes 4).toNat + (q.bytes 5).toNat * 2 ^ 8 +
            (q.bytes 6).toNat * 2 ^ 16 +
            (q.bytes 7).toNat * 2 ^ 24
        xflags := q.bytes 8
        os := q.bytes 9 }, ?_, ⟨Nat.le_refl 9, ?_⟩, ?_⟩
  · rw [gzipHeaderLoop_goOn (by decide) hStep]
  · exact hAt 3 (by decide)
  · change p.gzipHead.map _ = p.gzipHead.map _
    congr 1
    funext r
    unfold startHead
    rw [hAt 4 (by decide), hAt 5 (by decide),
      hAt 6 (by decide), hAt 7 (by decide),
      hAt 8 (by decide), hAt 9 (by decide)]
    have hTime : h.head.time.toNat = h.time.toNat % 2 ^ 32 :=
      UInt64.toNat_toUInt32 h.time
    have hSum := bytes_sum h.head.time
    rw [hTime] at hSum
    simp only [nine, le32]
    exact congrArg
      (fun n => ({ r with
        time := n
        xflags := 0x04
        os := h.head.os } : GzedcHeader)) hSum

variable (rest) in
/- The extra field, if any, leads to the check for a name. -/
theorem pass_extra
    (hWritten : h.Written)
    (hExtra : h.extra ≠ some [])
    (hPast : Past p h.flg)
    (hRoom :
      ∀ x, h.extra = some x →
        HeaderBuffer.extra.Room x.length p.gzipHead)
    (b : UInt8)
    {fuel n : Nat}
    (hFuel : n ≤ fuel)
    (hSmall : n ≤ 15) :
    ∃ b' fuel' q,
      n ≤ fuel' ∧
        gzipResume (extraField h.head ++ rest)
            (gzipHeaderLoop b (fuel + 1) p
              .flagsCheckExtra) =
          gzipResume rest
            (gzipHeaderLoop b' fuel' q .flagsCheckFname) ∧
        Past q h.flg ∧
        q.gzipHead = p.gzipHead.map (putExtra h) := by
  have hFlag := flg_extra h
  cases hSome : h.extra with
  | none =>
      have hNone : ¬ h.flg &&& 0x04 ≠ 0 := fun hSet =>
        hFlag.mp hSet hSome
      have hField : extraField h.head = [] := by
        unfold extraField GzHeader.head
        rw [hSome]
      have hSame : putExtra h = id := by
        funext r
        unfold putExtra
        rw [hSome]
        rfl
      refine ⟨b, fuel, p, hFuel, ?_, hPast, ?_⟩
      · rw [hField, List.nil_append,
          gzipHeaderLoop_noExtra hPast hNone]
      · rw [hSame, Option.map_id]
        rfl
  | some x =>
      have hX : x ≠ [] := fun hNil =>
        hExtra (hSome.trans (congrArg some hNil))
      have hSet : h.flg &&& 0x04 ≠ 0 :=
        hFlag.mpr (by rw [hSome]; exact fun h => nomatch h)
      have hField :
          extraField h.head ++ rest =
            UInt8.ofNat x.length ::
              UInt8.ofNat (x.length >>> 8) ::
              (x ++ rest) := by
        unfold extraField GzHeader.head
        rw [hSome]
        rfl
      rcases gzipResume_extraLen hPast hSet
        (hWritten.extra_lt hSome) b fuel (x ++ rest) with
        ⟨q, hEq, hQ, hTen, hState, hXlen, hZero, hHead⟩
      have hRoomQ :
          HeaderBuffer.extra.Room (0 + x.length)
            q.gzipHead := by
        rw [hHead, Nat.zero_add]
        exact HeaderBuffer.room_map (fun _ => rfl)
          (fun _ => rfl) (hRoom x hSome)
      rcases gzipBytes_extra hX hQ hTen hState hXlen
        (Or.inr hZero) hRoomQ with
        ⟨b', q', hEq', hQ', hHead'⟩
      refine ⟨b', 15, q', hSmall, ?_, hQ', ?_⟩
      · rw [hField, hEq, hEq']
      · rw [hHead', hHead, Option.map_map]
        congr 1
        funext r
        unfold putExtra
        rw [hSome]
        rfl

variable (rest) in
/- A string field, if any, leads to the next check. -/
theorem pass_string
    {B : HeaderBuffer}
    (S : StringState B)
    {str : Option CString} {flg : UInt8}
    (hFlag : flg &&& S.mask ≠ 0 ↔ textOf str ≠ [])
    (hPast : Past p flg)
    (hRoom :
      textOf str ≠ [] →
        B.Room ((textOf str).length + 1) p.gzipHead)
    (b : UInt8)
    {fuel n : Nat}
    (hFuel : n ≤ fuel)
    (hSmall : n ≤ 15) :
    ∃ b' fuel' q,
      n ≤ fuel' ∧
        gzipResume (stringBytes str ++ rest)
            (gzipHeaderLoop b (fuel + 1) p S.check) =
          gzipResume rest
            (gzipHeaderLoop b' fuel' q S.next) ∧
        Past q flg ∧
        q.gzipHead = p.gzipHead.map (putString B str) := by
  by_cases hNil : textOf str = []
  · have hNone : ¬ flg &&& S.mask ≠ 0 := fun hSet =>
      hFlag.mp hSet hNil
    have hSame : putString B str = id := by
      funext r
      unfold putString
      rw [if_pos hNil]
      rfl
    refine ⟨b, fuel, p, hFuel, ?_, hPast, ?_⟩
    · unfold stringBytes
      rw [if_pos hNil, List.nil_append,
        S.check_none hPast hNone]
    · rw [hSame, Option.map_id]
      rfl
  · have hZero : (0 : UInt8) ∉ textOf str := by
      unfold textOf
      cases str with
      | none => exact fun h => nomatch h
      | some c => exact c.noZero
    have hBytes :
        stringBytes str ++ rest =
          textOf str ++ 0 :: rest := by
      unfold stringBytes
      rw [if_neg hNil, List.append_assoc]
      rfl
    rcases S.pass hZero hPast
      (hFlag.mpr hNil) (hRoom hNil) b fuel with
      ⟨q, hEq, hQ, hHead⟩
    refine ⟨0, 15, q, hSmall, ?_, hQ, ?_⟩
    · rw [hBytes, hEq]
    · rw [hHead]
      congr 1
      funext r
      unfold putString
      rw [if_neg hNil]

/- Without any flag there is no field. -/
theorem fields_of_flg_zero
    (hWritten : h.Written)
    (hZero : h.flg = 0) :
    h.extra = none ∧ textOf h.name = [] ∧
      textOf h.comment = [] ∧ hcrcField h.head = [] := by
  have hExtra := flg_extra h
  have hName := flg_name hWritten
  have hComment := flg_comment hWritten
  rw [hZero] at hExtra hName hComment
  refine ⟨?_, ?_, ?_, ?_⟩
  · by_contra hSome
    exact absurd (hExtra.mpr hSome) (by decide)
  · by_contra hSome
    exact absurd (hName.mpr hSome) (by decide)
  · by_contra hSome
    exact absurd (hComment.mpr hSome) (by decide)
  · rw [flg_hcrc, hZero]
    rfl

/- A flag set leads to the check for the extra field. -/
theorem checkEmpty_step
    {flg : UInt8}
    (hPast : Past p flg)
    (hSet : flg ≠ 0)
    (b : UInt8)
    (fuel : Nat) :
    gzipHeaderLoop b (fuel + 1) p .flagsCheckEmpty =
      gzipHeaderLoop b fuel p .flagsCheckExtra := by
  have hStep :
      gzipHeaderStep b p .flagsCheckEmpty =
        some (.goOn p .flagsCheckExtra) := by
    simp only [gzipHeaderStep]
    rw [hPast.flg, if_neg hSet]
  exact gzipHeaderLoop_goOn (by decide) hStep

variable (rest) in
/- A header with room for its fields is read as a whole. -/
theorem gzipBytes_header
    (hWritten : h.Written)
    (hExtra : h.extra ≠ some [])
    (hIdx : p.idx = 0)
    (hState : p.headerState = .headerStart)
    (hRoom : HeaderRoom h p.gzipHead) :
    ∃ q,
      gzipBytes (h.bytes ++ rest) p = some (.ok, q, rest) ∧
        q.gzipHead = p.gzipHead.map (readHead h) := by
  rcases gzipBytes_start rest h hIdx hState with
    ⟨q₀, hStart, hPast₀, hHead₀⟩
  by_cases hZero : h.flg = 0
  · rcases fields_of_flg_zero hWritten hZero with
      ⟨hNoExtra, hNoName, hNoComment, hNoHcrc⟩
    have hFields : h.fields = [] := by
      unfold GzHeader.fields stringBytes
      rw [hNoHcrc, if_pos hNoName, if_pos hNoComment]
      unfold extraField GzHeader.head
      rw [hNoExtra]
      rfl
    have hStep :
        gzipHeaderStep h.head.os q₀ .flagsCheckEmpty =
          some (.goOn q₀ .headerDone) := by
      simp only [gzipHeaderStep]
      rw [hPast₀.flg, if_pos hZero]
    rw [hStart, hFields, List.nil_append,
      gzipHeaderLoop_goOn (by decide) hStep,
      gzipHeaderLoop_done]
    refine ⟨_, rfl, ?_⟩
    change q₀.gzipHead.map _ = _
    rw [hHead₀, Option.map_map]
    congr 1
    funext r
    unfold readHead putString putExtra finishHead
    rw [if_pos hNoName, if_pos hNoComment, hNoExtra, hZero]
    rfl
  · rw [hStart, checkEmpty_step hPast₀ hZero]
    unfold GzHeader.fields
    simp only [List.append_assoc]
    have hRoomExtra :
        ∀ x, h.extra = some x →
          HeaderBuffer.extra.Room x.length q₀.gzipHead := by
      intro x hX
      rw [hHead₀]
      exact HeaderBuffer.room_map (fun _ => rfl)
        (fun _ => rfl) (hRoom.extra x hX)
    rcases pass_extra
      (stringBytes h.name ++
        (stringBytes h.comment ++
          (hcrcField h.head ++ rest)))
      hWritten hExtra hPast₀ hRoomExtra h.head.os
      (Nat.le_refl 13) (by decide) with
      ⟨b₁, fuel₁, q₁, hFuel₁, hEq₁, hPast₁, hHead₁⟩
    have hPutExtra :
        ∀ r, (putExtra h r).name = r.name ∧
          (putExtra h r).nameMax = r.nameMax ∧
          (putExtra h r).comment = r.comment ∧
          (putExtra h r).commMax = r.commMax := by
      intro r
      unfold putExtra
      split <;> exact ⟨rfl, rfl, rfl, rfl⟩
    have hRoomName :
        textOf h.name ≠ [] →
          HeaderBuffer.name.Room
            ((textOf h.name).length + 1) q₁.gzipHead := by
      intro hSome
      rw [hHead₁, hHead₀]
      exact HeaderBuffer.room_map
        (fun r => (hPutExtra r).1)
        (fun r => (hPutExtra r).2.1)
        (HeaderBuffer.room_map (fun _ => rfl)
          (fun _ => rfl) (hRoom.name hSome))
    rcases pass_string
      (stringBytes h.comment ++
        (hcrcField h.head ++ rest))
      nameState (flg_name hWritten) hPast₁ hRoomName b₁
      (Nat.sub_le_sub_right hFuel₁ 1) (by decide) with
      ⟨b₂, fuel₂, q₂, hFuel₂, hEq₂, hPast₂, hHead₂⟩
    have hPutName :
        ∀ r,
          (putString HeaderBuffer.name h.name
              r).comment = r.comment ∧
            (putString HeaderBuffer.name h.name
              r).commMax = r.commMax := by
      intro r
      unfold putString
      split <;> exact ⟨rfl, rfl⟩
    have hRoomComment :
        textOf h.comment ≠ [] →
          HeaderBuffer.comment.Room
            ((textOf h.comment).length + 1)
            q₂.gzipHead := by
      intro hSome
      rw [hHead₂, hHead₁, hHead₀]
      exact HeaderBuffer.room_map
        (fun r => (hPutName r).1)
        (fun r => (hPutName r).2)
        (HeaderBuffer.room_map
          (fun r => (hPutExtra r).2.2.1)
          (fun r => (hPutExtra r).2.2.2)
          (HeaderBuffer.room_map (fun _ => rfl)
            (fun _ => rfl) (hRoom.comment hSome)))
    rcases pass_string (hcrcField h.head ++ rest)
      commentState (flg_comment hWritten) hPast₂
      hRoomComment b₂
      (Nat.sub_le_sub_right hFuel₂ 1) (by decide) with
      ⟨b₃, fuel₃, q₃, hFuel₃, hEq₃, hPast₃, hHead₃⟩
    rcases gzipResume_fhcrc hPast₃ b₃ (fuel₃ - 3) rest with
      ⟨q₄, hEq₄, hHead₄⟩
    refine ⟨q₄, ?_, ?_⟩
    · have hOne : fuel₁ - 1 + 1 = fuel₁ := by omega
      have hTwo : fuel₂ - 1 + 1 = fuel₂ := by omega
      have hThree : fuel₃ - 3 + 3 = fuel₃ := by omega
      rw [hOne] at hEq₂
      rw [hTwo] at hEq₃
      rw [hThree, ← flg_hcrc] at hEq₄
      exact hEq₁.trans (hEq₂.trans (hEq₃.trans hEq₄))
    · rw [hHead₄, hHead₃, hHead₂, hHead₁, hHead₀,
        Option.map_map, Option.map_map, Option.map_map,
        Option.map_map]
      rfl

------------------------------------------------------------
-- Headers That Are Not Read
------------------------------------------------------------

/-
  The reader's buffers exist and are large enough for the
  fields that are there.
-/
structure ReaderFits
    (h : GzHeader)
    (r : GzedcHeader) : Prop where
  extra :
    ∀ x, h.extra = some x →
      r.extra ≠ none ∧ x.length ≤ r.extraMax.toNat
  name :
    textOf h.name ≠ [] →
      r.name ≠ none ∧
        (textOf h.name).length + 1 ≤ r.nameMax.toNat
  comment :
    textOf h.comment ≠ [] →
      r.comment ≠ none ∧
        (textOf h.comment).length + 1 ≤ r.commMax.toNat

/- The maxima that are used are below 2 GiB. -/
structure MaxSigned
    (h : GzHeader)
    (r : GzedcHeader) : Prop where
  extra : h.extra ≠ none → r.extraMax.toNat < 2 ^ 31
  name : textOf h.name ≠ [] → r.nameMax.toNat < 2 ^ 31
  comment :
    textOf h.comment ≠ [] → r.commMax.toNat < 2 ^ 31

theorem asSigned_of_lt
    {n : Nat}
    (hLt : n < 2 ^ 31) :
    asSigned 32 n = n :=
  if_pos hLt

theorem asSigned_of_ge
    {n : Nat}
    (hGe : ¬ n < 2 ^ 31)
    (hWord : n < 2 ^ 32) :
    asSigned 32 n ≤ 0 := by
  unfold asSigned
  rw [if_neg hGe]
  omega

/- A buffer that is large enough has room. -/
theorem HeaderBuffer.room_some
    {B : HeaderBuffer}
    {n : Nat} {r : GzedcHeader}
    (hBuf : B.buf r ≠ none)
    (hMax : n ≤ (B.max r).toNat)
    (hSigned : (B.max r).toNat < 2 ^ 31) :
    B.Room n (some r) := by
  intro r' hEq
  cases hEq
  refine ⟨hBuf, ?_⟩
  rw [asSigned_of_lt hSigned]
  exact_mod_cast hMax

theorem headerRoom_of_fits
    {h : GzHeader} {r : GzedcHeader}
    (hFits : ReaderFits h r)
    (hMax : MaxSigned h r) :
    HeaderRoom h (some r) where
  extra := fun x hX =>
    HeaderBuffer.room_some (hFits.extra x hX).1
      (hFits.extra x hX).2
      (hMax.extra (by rw [hX]; exact fun h => nomatch h))
  name := fun hSome =>
    HeaderBuffer.room_some (hFits.name hSome).1
      (hFits.name hSome).2 (hMax.name hSome)
  comment := fun hSome =>
    HeaderBuffer.room_some (hFits.comment hSome).1
      (hFits.comment hSome).2 (hMax.comment hSome)

/- A field that is there has a first byte. -/
theorem stringBytes_cons
    {str : Option CString}
    (hSome : textOf str ≠ []) :
    ∃ c l, stringBytes str = c :: l := by
  unfold stringBytes
  rw [if_neg hSome]
  rcases List.exists_cons_of_ne_nil hSome with ⟨c, l, hEq⟩
  exact ⟨c, l ++ [0], by rw [hEq]; rfl⟩

/- An extra field without bytes is not read to its end. -/
theorem empty_extra_not_read
    (hWritten : h.Written)
    (hExtra : h.extra = some [])
    (hIdx : p.idx = 0)
    (hState : p.headerState = .headerStart)
    {rc : HdrRc} {p' : Prefx} {left : List UInt8}
    (hBytes : gzipBytes h.bytes p = some (rc, p', left)) :
    rc ≠ .ok := by
  rcases gzipBytes_start [] h hIdx hState with
    ⟨q₀, hStart, hPast₀, hHead₀⟩
  have hSet : h.flg &&& 0x04 ≠ 0 :=
    (flg_extra h).mpr (by
      rw [hExtra]
      exact fun h => nomatch h)
  have hFlg : h.flg ≠ 0 := by
    intro hZero
    rw [hZero] at hSet
    exact hSet (by decide)
  have hField : extraField h.head = [0, 0] := by
    unfold extraField GzHeader.head
    rw [hExtra]
    rfl
  have hLength := hWritten.fields_lt
  have hHcrc : (hcrcField h.head).length ≤ 2 := by
    unfold hcrcField
    split <;> simp
  rw [List.append_nil, List.append_nil] at hStart
  rw [hStart, checkEmpty_step hPast₀ hFlg] at hBytes
  unfold GzHeader.fields at hBytes
  rw [hField] at hBytes
  rcases gzipResume_extraLen (n := 0) hPast₀ hSet
    (by decide) h.head.os 13
    (stringBytes h.name ++
      (stringBytes h.comment ++ hcrcField h.head)) with
    ⟨q, hEq, -, hTen, hStateQ, hXlen, -, -⟩
  have hZero : q.xlen = 0 := UInt16.toNat_inj.mp hXlen
  refine gzipBytes_in_extra hTen hStateQ ?_
    (hEq.symm.trans hBytes)
  rw [hZero]
  unfold extraCount
  rw [if_pos rfl]
  simp only [List.length_append]
  omega

variable (rest) in
/- A used maximum of 2 GiB or more refuses the header. -/
theorem large_max_refused
    (hWritten : h.Written)
    (hExtra : h.extra ≠ some [])
    (hIdx : p.idx = 0)
    (hState : p.headerState = .headerStart)
    {r : GzedcHeader}
    (hReader : p.gzipHead = some r)
    (hFits : ReaderFits h r)
    (hLarge : ¬ MaxSigned h r)
    {out : HdrRc × Prefx × List UInt8}
    (hBytes : gzipBytes (h.bytes ++ rest) p = some out) :
    out.1 = .error := by
  rcases gzipBytes_start rest h hIdx hState with
    ⟨q₀, hStart, hPast₀, hHead₀⟩
  rw [hReader, Option.map_some] at hHead₀
  have hFlg : h.flg ≠ 0 := by
    intro hZero
    rcases fields_of_flg_zero hWritten hZero with
      ⟨hNoExtra, hNoName, hNoComment, -⟩
    exact hLarge ⟨fun hSome => absurd hNoExtra hSome,
      fun hSome => absurd hNoName hSome,
      fun hSome => absurd hNoComment hSome⟩
  rw [hStart, checkEmpty_step hPast₀ hFlg] at hBytes
  unfold GzHeader.fields at hBytes
  simp only [List.append_assoc] at hBytes
  by_cases hMaxX :
      h.extra ≠ none → r.extraMax.toNat < 2 ^ 31
  case neg =>
    rcases Classical.not_imp.mp hMaxX with ⟨hSome, hGe⟩
    rcases Option.ne_none_iff_exists'.mp hSome with
      ⟨x, hX⟩
    have hNe : x ≠ [] := fun hNil =>
      hExtra (hX.trans (congrArg some hNil))
    rcases List.exists_cons_of_ne_nil hNe with
      ⟨c, l, rfl⟩
    rcases gzipResume_extraLen hPast₀
      ((flg_extra h).mpr hSome) (hWritten.extra_lt hX)
      h.head.os 13
      ((c :: l) ++ (stringBytes h.name ++
        (stringBytes h.comment ++
          (hcrcField h.head ++ rest)))) with
      ⟨q, hEq, -, hTen, hStateQ, -, hZero, hHead⟩
    have hField :
        extraField h.head =
          UInt8.ofNat (c :: l).length ::
            UInt8.ofNat ((c :: l).length >>> 8) ::
            (c :: l) := by
      unfold extraField GzHeader.head
      rw [hX]
      rfl
    rw [hField] at hBytes
    rw [hHead₀, Option.map_some] at hHead
    exact gzipBytes_extra_refused hTen hStateQ hZero hHead
      (asSigned_of_ge hGe r.extraMax.toNat_lt) c _
      (hEq.symm.trans hBytes)
  have hRoomExtra :
      ∀ x, h.extra = some x →
        HeaderBuffer.extra.Room x.length q₀.gzipHead := by
    intro x hX
    rw [hHead₀]
    exact HeaderBuffer.room_some (hFits.extra x hX).1
      (hFits.extra x hX).2
      (hMaxX (by rw [hX]; exact fun h => nomatch h))
  rcases pass_extra
    (stringBytes h.name ++
      (stringBytes h.comment ++
        (hcrcField h.head ++ rest)))
    hWritten hExtra hPast₀ hRoomExtra h.head.os
    (Nat.le_refl 13) (by decide) with
    ⟨b₁, fuel₁, q₁, hFuel₁, hEq₁, hPast₁, hHead₁⟩
  rw [hHead₀, Option.map_some] at hHead₁
  have hOne : fuel₁ - 1 + 1 = fuel₁ := by omega
  have hKept :
      (putExtra h (startHead h r)).name = r.name ∧
        (putExtra h (startHead h r)).nameMax = r.nameMax ∧
        (putExtra h (startHead h r)).comment = r.comment ∧
        (putExtra h (startHead h r)).commMax =
          r.commMax := by
    unfold putExtra
    split <;> exact ⟨rfl, rfl, rfl, rfl⟩
  replace hBytes := hEq₁.symm.trans hBytes
  rw [← hOne] at hBytes
  by_cases hMaxN :
      textOf h.name ≠ [] → r.nameMax.toNat < 2 ^ 31
  case neg =>
    rcases Classical.not_imp.mp hMaxN with ⟨hSome, hGe⟩
    rcases stringBytes_cons hSome with ⟨c, l, hCons⟩
    rw [hCons] at hBytes
    refine nameState.refused hPast₁
      ((flg_name hWritten).mpr hSome) hHead₁ ?_ b₁ c _ _
      hBytes
    change asSigned 32
      (putExtra h (startHead h r)).nameMax.toNat ≤ 0
    rw [hKept.2.1]
    exact asSigned_of_ge hGe r.nameMax.toNat_lt
  have hRoomName :
      textOf h.name ≠ [] →
        HeaderBuffer.name.Room
          ((textOf h.name).length + 1) q₁.gzipHead := by
    intro hSome
    rw [hHead₁]
    have hMaxEq :
        HeaderBuffer.name.max (putExtra h (startHead h r)) =
          r.nameMax := hKept.2.1
    have hBufEq :
        HeaderBuffer.name.buf (putExtra h (startHead h r)) =
          r.name := hKept.1
    refine HeaderBuffer.room_some ?_ ?_ ?_
    · rw [hBufEq]
      exact (hFits.name hSome).1
    · rw [hMaxEq]
      exact (hFits.name hSome).2
    · rw [hMaxEq]
      exact hMaxN hSome
  rcases pass_string
    (stringBytes h.comment ++
      (hcrcField h.head ++ rest))
    nameState (flg_name hWritten) hPast₁ hRoomName b₁
    (Nat.sub_le_sub_right hFuel₁ 1) (by decide) with
    ⟨b₂, fuel₂, q₂, hFuel₂, hEq₂, hPast₂, hHead₂⟩
  rw [hHead₁, Option.map_some] at hHead₂
  have hTwo : fuel₂ - 1 + 1 = fuel₂ := by omega
  replace hBytes := hEq₂.symm.trans hBytes
  rw [← hTwo] at hBytes
  have hGe :
      textOf h.comment ≠ [] ∧ ¬ r.commMax.toNat < 2 ^ 31 := by
    by_contra hNot
    refine hLarge ⟨hMaxX, hMaxN, fun hSome => ?_⟩
    by_contra hGe
    exact hNot ⟨hSome, hGe⟩
  rcases stringBytes_cons hGe.1 with ⟨c, l, hCons⟩
  rw [hCons] at hBytes
  refine commentState.refused hPast₂
    ((flg_comment hWritten).mpr hGe.1) hHead₂ ?_ b₂ c _ _
    hBytes
  have hMaxC :
      (putString HeaderBuffer.name h.name
          (putExtra h (startHead h r))).commMax =
        r.commMax := by
    unfold putString
    split <;> exact hKept.2.2.2
  change asSigned 32
    (putString HeaderBuffer.name h.name
      (putExtra h (startHead h r))).commMax.toNat ≤ 0
  rw [hMaxC]
  exact asSigned_of_ge hGe.2 r.commMax.toNat_lt

end Reading

------------------------------------------------------------
-- The Round Trip
------------------------------------------------------------

/-
  A field as the reader's structure gives it: the pointer is
  NULL if there is none, else the buffer begins with it.
-/
def fieldYield
    (field : Option (List UInt8))
    (buf : Option ByteMem) : Prop :=
  match field with
  | none => buf = none
  | some l => ∃ m, buf = some m ∧ m.window 0 l.length = l

/- A string with its zero byte, if there is one. -/
def stringOf (str : Option CString) : Option (List UInt8) :=
  str.map (fun c => c.bytes ++ [0])

/-
  What the reader's structure holds behind the header;
  `extra_len` is valid where `extra` is not NULL.
-/
structure HeaderYield
    (h : GzHeader)
    (r : GzedcHeader) : Prop where
  time : r.time = h.time.toNat % 2 ^ 32
  os : (r.os.toNat : Int) = h.os
  extra : fieldYield h.extra r.extra
  extraLen :
    ∀ x, h.extra = some x → r.extraLen.toNat = x.length
  name : fieldYield (stringOf h.name) r.name
  comment : fieldYield (stringOf h.comment) r.comment

/-
  What deflate pushes for the header `h`, followed by any
  bytes and offered over any calls, is what inflate takes; it
  ends with the header done, and the structure that the
  reader registered, if any, holds the header.
-/
def HeaderTrip
    (h : GzHeader)
    (reader : Option GzedcHeader) : Prop :=
  ∀ (now : UInt32) (w : DeflStream),
    w.format = .gzip →
      w.gzipHead = some h.head →
      w.outFifo.contents = [] →
      (deflateAddHeader now w).1 = false →
    ∀ (s : InflStream) (calls : List HeaderCall)
      (more : List UInt8),
      s.format = .gzip →
        s.nextIn = [] →
        s.prefx.len = 0 →
        s.prefx.headerState = .headerStart →
        s.prefx.gzipHead = reader →
        callBytes calls =
          (deflateAddHeader now w).2.outFifo.contents ++
            more →
      ∃ s' later,
        feedHeader calls s = some (.ok, s', later) ∧
          s'.prefx.headerState = .headerDone ∧
          s'.nextIn ++ callBytes later = more ∧
          s'.totalIn =
            s.totalIn +
              (deflateAddHeader now
                w).2.outFifo.contents.length ∧
          ∀ r, reader = some r →
            ∃ r', s'.prefx.gzipHead = some r' ∧
              HeaderYield h r'

/-
  A name or a comment without characters is not written, and
  the reader then leaves its pointer and its buffer alone.
  They agree with such a string if they did so before.
-/
structure UnwrittenAgrees
    (str : Option CString)
    (buf : Option ByteMem) : Prop where
  missing : str = none → buf = none
  empty :
    ∀ c, str = some c → c.bytes = [] →
      ∃ m, buf = some m ∧ m 0 = 0

/-
  Of the fields that are not written, the structure that the
  reader registers says already what the writer's says.
-/
structure LeftOutAgrees
    (h : GzHeader)
    (r : GzedcHeader) : Prop where
  extra : h.extra = none → r.extra = none
  name : UnwrittenAgrees h.name r.name
  comment : UnwrittenAgrees h.comment r.comment

theorem fieldYield_putString
    {B : HeaderBuffer}
    (str : Option CString)
    (r : GzedcHeader) :
    fieldYield (stringOf str) (B.buf (putString B str r)) ↔
      UnwrittenAgrees str (B.buf r) := by
  cases str with
  | none =>
      have hOld : putString B none r = r := rfl
      rw [hOld]
      constructor
      · intro hNone
        exact ⟨fun _ => hNone, fun c hEq => by cases hEq⟩
      · intro hAgrees
        exact hAgrees.missing rfl
  | some c =>
      by_cases hNil : c.bytes = []
      · have hOld : putString B (some c) r = r := if_pos hNil
        have hField : stringOf (some c) = some [0] := by
          unfold stringOf
          rw [Option.map_some, hNil]
          rfl
        rw [hOld, hField]
        constructor
        · rintro ⟨m, hBuf, hZero⟩
          have hByte : m 0 = 0 := List.head_eq_of_cons_eq hZero
          refine ⟨fun hEq => (by cases hEq), fun _ _ _ => ?_⟩
          exact ⟨m, hBuf, hByte⟩
        · intro hAgrees
          rcases hAgrees.empty c rfl hNil with
            ⟨m, hBuf, hByte⟩
          exact ⟨m, hBuf, congrArg (fun x => [x]) hByte⟩
      · have hNew :
            putString B (some c) r =
              B.put 0 (c.bytes ++ [0]) r := if_neg hNil
        rw [hNew]
        unfold HeaderBuffer.put
        rw [B.buf_setBuf]
        constructor
        · intro _
          refine ⟨fun hEq => (by cases hEq),
            fun c' hEq hNo => ?_⟩
          cases hEq
          exact absurd hNo hNil
        · intro _
          exact ⟨_, rfl, window_store_same _ 0 _⟩

theorem fieldYield_putExtra
    (h : GzHeader)
    (r : GzedcHeader) :
    fieldYield h.extra (putExtra h r).extra ↔
      (h.extra = none → r.extra = none) := by
  unfold putExtra
  cases h.extra with
  | none =>
      exact ⟨fun hNone _ => hNone, fun hAgrees => hAgrees rfl⟩
  | some x =>
      constructor
      · intro _ hEq
        cases hEq
      · intro _
        exact ⟨_, rfl, window_store_same _ 0 x⟩

theorem toNat_ofInt_uint8 (n : Int) :
    ((UInt8.ofInt n).toNat : Int) = n % 256 := by
  have hPos := Int.emod_nonneg n (by decide : (256 : Int) ≠ 0)
  have hLt :=
    Int.emod_lt_of_pos n (by decide : (0 : Int) < 256)
  have hNat :
      (UInt8.ofInt n).toNat = (n % 256).toNat % 2 ^ 8 :=
    UInt8.toNat_ofNat'
  rw [hNat]
  omega

section Kept

variable (h : GzHeader) (r : GzedcHeader)

/- Each step of reading changes its own fields only. -/
theorem readHead_time :
    (readHead h r).time = h.time.toNat % 2 ^ 32 := by
  unfold readHead finishHead putString putExtra
  repeat' split
  all_goals rfl

theorem readHead_os :
    (readHead h r).os = UInt8.ofInt h.os := by
  unfold readHead finishHead putString putExtra
  repeat' split
  all_goals rfl

theorem readHead_extra :
    (readHead h r).extra =
      (putExtra h (startHead h r)).extra := by
  unfold readHead finishHead putString
  repeat' split
  all_goals rfl

theorem readHead_extraLen :
    (readHead h r).extraLen =
      (putExtra h (startHead h r)).extraLen := by
  unfold readHead finishHead putString
  repeat' split
  all_goals rfl

theorem readHead_name :
    fieldYield (stringOf h.name) (readHead h r).name ↔
      UnwrittenAgrees h.name r.name := by
  have hKept :
      (readHead h r).name =
        (putString HeaderBuffer.name h.name
          (putExtra h (startHead h r))).name := by
    unfold readHead finishHead putString
    repeat' split
    all_goals rfl
  have hOld :
      (putExtra h (startHead h r)).name = r.name := by
    unfold putExtra
    split <;> rfl
  rw [hKept, ← hOld]
  exact fieldYield_putString (B := HeaderBuffer.name) h.name _

theorem readHead_comment :
    fieldYield (stringOf h.comment) (readHead h r).comment ↔
      UnwrittenAgrees h.comment r.comment := by
  have hKept :
      (readHead h r).comment =
        (putString HeaderBuffer.comment h.comment
          (putString HeaderBuffer.name h.name
            (putExtra h (startHead h r)))).comment := by
    unfold readHead finishHead putString
    repeat' split
    all_goals rfl
  have hOld :
      (putString HeaderBuffer.name h.name
          (putExtra h (startHead h r))).comment =
        r.comment := by
    unfold putString putExtra
    repeat' split
    all_goals rfl
  rw [hKept, ← hOld]
  exact fieldYield_putString (B := HeaderBuffer.comment)
    h.comment _

end Kept

/-
  The os byte can be cut, and what is not written has to be
  there before; all else comes back.
-/
theorem headerYield_readHead
    {h : GzHeader}
    (hWritten : h.Written)
    (r : GzedcHeader) :
    HeaderYield h (readHead h r) ↔
      (0 ≤ h.os ∧ h.os < 256) ∧ LeftOutAgrees h r := by
  constructor
  · intro hYield
    have hEq := hYield.os
    rw [readHead_os, toNat_ofInt_uint8] at hEq
    have hExtra := hYield.extra
    rw [readHead_extra, fieldYield_putExtra] at hExtra
    exact ⟨by omega, hExtra,
      (readHead_name h r).mp hYield.name,
      (readHead_comment h r).mp hYield.comment⟩
  · rintro ⟨⟨hPos, hByte⟩, hLeft⟩
    refine ⟨readHead_time h r, ?_, ?_, ?_, ?_, ?_⟩
    · rw [readHead_os, toNat_ofInt_uint8]
      omega
    · rw [readHead_extra]
      exact (fieldYield_putExtra h _).mpr hLeft.extra
    · intro x hX
      have hLt := hWritten.extra_lt hX
      rw [readHead_extraLen]
      unfold putExtra
      rw [hX]
      change (UInt16.ofNat x.length).toNat = x.length
      rw [UInt16.toNat_ofNat']
      exact Nat.mod_eq_of_lt (by omega)
    · exact (readHead_name h r).mpr hLeft.name
    · exact (readHead_comment h r).mpr hLeft.comment

section Trip

variable {h : GzHeader} {reader : Option GzedcHeader}

/- What a header that comes back must be like. -/
theorem HeaderTrip.needs
    (hWritten : h.Written)
    (hFits : ∀ r, reader = some r → ReaderFits h r)
    (hTrip : HeaderTrip h reader) :
    h.extra ≠ some [] ∧
      ∀ r, reader = some r →
        (0 ≤ h.os ∧ h.os < 256) ∧ MaxSigned h r ∧
          LeftOutAgrees h r := by
  let w : DeflStream :=
    { DeflStream.zeroed .gzip false with
      gzipHead := some h.head }
  let s : InflStream :=
    { InflStream.zeroed .gzip with
      prefx :=
        { (InflStream.zeroed .gzip).prefx with
          gzipHead := reader } }
  rcases contents_deflateAddHeader hWritten 0
    (w := w) rfl rfl ZedcFifo.contents_fifoInit with
    ⟨hOk, hContents⟩
  have hCalls :
      callBytes [⟨.noFlush, h.bytes⟩] =
        (deflateAddHeader 0 w).2.outFifo.contents ++ [] := by
    rw [hContents]
    rfl
  rcases hTrip 0 w rfl rfl ZedcFifo.contents_fifoInit hOk
    s _ [] rfl rfl rfl rfl rfl hCalls with
    ⟨s', later, hFeed, hDone, -, -, hYield⟩
  have hOpen : s.prefx.headerState ≠ .headerDone := by
    change HeadState.headerStart ≠ .headerDone
    decide
  rcases feedHeader_single rfl rfl hOpen hFeed hDone with
    ⟨left, hBytes⟩
  change gzipBytes h.bytes s.prefx.prepared = _ at hBytes
  have hExtra : h.extra ≠ some [] := fun hNone =>
    empty_extra_not_read hWritten hNone rfl rfl hBytes rfl
  refine ⟨hExtra, fun r hR => ?_⟩
  have hReg : s.prefx.prepared.gzipHead = some r := hR
  have hMax : MaxSigned h r := by
    by_contra hLarge
    have hError :=
      large_max_refused [] hWritten hExtra
        rfl rfl hReg (hFits r hR) hLarge
        (by rw [List.append_nil]; exact hBytes)
    exact nomatch hError
  have hRoom : HeaderRoom h s.prefx.prepared.gzipHead := by
    rw [hReg]
    exact headerRoom_of_fits (hFits r hR) hMax
  rcases gzipBytes_header [] hWritten hExtra
    rfl rfl hRoom with ⟨q, hRead, hQ⟩
  rw [List.append_nil, hBytes] at hRead
  cases hRead
  rcases hYield r hR with ⟨r', hEnd, hHolds⟩
  rw [hQ, hReg] at hEnd
  cases hEnd
  rcases (headerYield_readHead hWritten r).mp hHolds with
    ⟨hOs, hLeftOut⟩
  exact ⟨hOs, hMax, hLeftOut⟩

/- A header of that kind comes back. -/
theorem HeaderTrip.of
    (hWritten : h.Written)
    (hFits : ∀ r, reader = some r → ReaderFits h r)
    (hExtra : h.extra ≠ some [])
    (hReader :
      ∀ r, reader = some r →
        (0 ≤ h.os ∧ h.os < 256) ∧ MaxSigned h r ∧
          LeftOutAgrees h r) :
    HeaderTrip h reader := by
  intro now w hFormat hHead hEmpty hOk s calls more hGzip
    hIn hLen hState hReg hCalls
  rcases contents_deflateAddHeader hWritten now hFormat
    hHead hEmpty with ⟨-, hContents⟩
  rw [hContents] at hCalls ⊢
  have hPrep :
      s.prefx.prepared =
        { s.prefx with idx := 0, len := 10 } := by
    unfold Prefx.prepared
    rw [if_pos hLen]
  have hRoom : HeaderRoom h reader := by
    cases hR : reader with
    | none =>
        exact ⟨fun _ _ _ h => (nomatch h),
          fun _ _ h => (nomatch h),
          fun _ _ h => (nomatch h)⟩
    | some r =>
        exact headerRoom_of_fits (hFits r hR)
          (hReader r hR).2.1
  have hRead :=
    gzipBytes_header more
      (p := s.prefx.prepared) hWritten hExtra
      (by rw [hPrep]) (by rw [hPrep]; exact hState)
      (by rw [hPrep]; exact hReg.symm ▸ hRoom)
  rcases hRead with ⟨q, hBytes, hQ⟩
  rw [← hCalls] at hBytes
  have hOpen : s.prefx.headerState ≠ .headerDone := by
    rw [hState]
    exact fun h => nomatch h
  rcases feedHeader_ok hGzip hIn hOpen hBytes with
    ⟨s', later, hFeed, hPrefx, hLeft, hTotal⟩
  refine ⟨s', later, hFeed, ?_, hLeft, ?_, ?_⟩
  · rw [hPrefx]
    exact gzipBytes_ok hBytes
  · rw [hTotal, hCalls, List.length_append]
    omega
  · intro r hR
    refine ⟨readHead h r, ?_, ?_⟩
    · rw [hPrefx, hQ, hPrep]
      change s.prefx.gzipHead.map _ = _
      rw [hReg, hR]
      rfl
    · rcases hReader r hR with ⟨hOs, -, hLeftOut⟩
      exact (headerYield_readHead hWritten r).mpr
        ⟨hOs, hLeftOut⟩

/-
  The round trip holds exactly if the extra field, if any,
  is not empty and, with a registered structure, the os is a
  byte, the maxima in use are below 2 GiB, and the structure
  says already that a field is missing or empty which the
  writer leaves out: nothing clears it.
-/
theorem header_trip_iff
    (hWritten : h.Written)
    (hFits : ∀ r, reader = some r → ReaderFits h r) :
    HeaderTrip h reader ↔
      h.extra ≠ some [] ∧
        ∀ r, reader = some r →
          (0 ≤ h.os ∧ h.os < 256) ∧ MaxSigned h r ∧
            LeftOutAgrees h r :=
  ⟨HeaderTrip.needs hWritten hFits,
    fun hCond => HeaderTrip.of hWritten hFits hCond.1 hCond.2⟩

end Trip

/- A header whose extra field has no bytes. -/
def emptyExtra : GzHeader :=
  ⟨0, 0, 3, some [], none, none⟩

/- It is written, and does not come back. -/
theorem empty_extra_lost :
    ¬ ∀ (h : GzHeader) (reader : Option GzedcHeader),
      h.Written →
        (∀ r, reader = some r → ReaderFits h r) →
          HeaderTrip h reader := by
  intro hAll
  have hWritten : emptyExtra.Written :=
    ⟨by decide, by decide⟩
  have hFits :
      ∀ r, (none : Option GzedcHeader) = some r →
        ReaderFits emptyExtra r := by
    intro r hEq
    cases hEq
  have hTrip := hAll emptyExtra none hWritten hFits
  exact (hTrip.needs hWritten hFits).1 rfl

/-
  A header with a byte of extra data, a name, an empty
  comment and a check.
-/
def fullHeader : GzHeader :=
  ⟨0x12345678, 2, 3, some [7], some ⟨[0x61], by decide⟩,
    some ⟨[], by decide⟩⟩

/-
  A structure with a buffer of 16 bytes for each field; the
  one for the comment holds the empty string.
-/
def fullReader : GzedcHeader :=
  ⟨false, 0, 0, 0, some (fun _ => 0), 0, 16,
    some (fun _ => 0x78), 16, some (fun _ => 0), 16, false⟩

theorem header_trip_full :
    HeaderTrip fullHeader (some fullReader) := by
  have hFits :
      ∀ r, some fullReader = some r →
        ReaderFits fullHeader r := by
    intro r hEq
    cases hEq
    refine ⟨?_, fun _ => ⟨fun h => (nomatch h), by decide⟩,
      fun _ => ⟨fun h => (nomatch h), by decide⟩⟩
    intro x hX
    cases hX
    exact ⟨fun h => (nomatch h), by decide⟩
  refine (header_trip_iff ⟨by decide, by decide⟩ hFits).mpr
    ⟨by decide, fun r hEq => ?_⟩
  cases hEq
  have hMax : MaxSigned fullHeader fullReader :=
    ⟨fun _ => (by decide), fun _ => (by decide),
      fun _ => by decide⟩
  have hName :
      UnwrittenAgrees fullHeader.name fullReader.name := by
    refine ⟨fun hNone => (by cases hNone),
      fun c hC hNil => ?_⟩
    cases hC
    cases hNil
  have hComment :
      UnwrittenAgrees fullHeader.comment fullReader.comment :=
    ⟨fun hNone => (by cases hNone),
      fun _ _ _ => ⟨_, rfl, rfl⟩⟩
  have hLeftOut : LeftOutAgrees fullHeader fullReader :=
    ⟨fun hNone => (by cases hNone), hName, hComment⟩
  exact ⟨by decide, hMax, hLeftOut⟩

end Zedc
