import GenWqe.Deflate.Stream
import GenWqe.Lib.BlockBits

/-
  The functions of `deflate.c` that put bytes into the output
  FIFO and drain it: format header and trailer, end of block,
  flush marker. Each is shown by what it appends to the bit
  stream that the caller's buffers, the FIFO and the partial
  byte hold together.

  Key definitions include:
    * `deflateAddHeader`, `deflateWriteOutFifo`
    * `deflateAddTrailer`, `deflateWriteEob`,
      `deflateSyncFlush`
    * `emitted`

  Main results:
    * `deflateWriteOutFifo_spec`
    * `deflateWriteEob_spec`
    * `deflateSyncFlush_spec`
    * `deflateAddHeader_spec`
    * `deflateAddTrailer_spec`
-/

------------------------------------------------------------
-- Draining the FIFO
------------------------------------------------------------

namespace Zedc

open Bits BlockBits

/- `push_output_byte` -/
def pushOutputByte (s : DeflStream) (data : UInt8) :
    DeflStream :=
  if s.availOut = 0 then s
  else
    { s with
      nextOut := s.nextOut ++ [data]
      totalOut := s.totalOut + 1
      availOut := s.availOut - 1 }

/- At most `fuel` rounds of the loop below. -/
def deflateWriteOutFifoLoop :
    Nat → DeflStream → DeflStream
  | 0, s => s
  | fuel + 1, s =>
      if s.availOut = 0 then s
      else
        match s.outFifo.fifoPop with
        | none => s
        | some (data, f) =>
            deflateWriteOutFifoLoop fuel
              (pushOutputByte { s with outFifo := f } data)

/-
  `deflate_write_out_fifo`. Every round takes one byte of
  space, which bounds the loop.
-/
def deflateWriteOutFifo (s : DeflStream) : DeflStream :=
  deflateWriteOutFifoLoop s.availOut s

/-
  The bits of a stream so far: what the caller was given, the
  FIFO, and the valid bits of the partial byte.
-/
def emitted (s : DeflStream) : List Bool :=
  bitsOf (s.nextOut ++ s.outFifo.contents) ++
    (byteBits s.obyte).take s.onumbits

/- A drained stream: only output and FIFO have moved. -/
structure DrainedTo (s s' : DeflStream) : Prop where
  eq :
    ∃ out f,
      s.outFifo.contents = out ++ f.contents ∧
      out.length ≤ s.availOut ∧
      s' =
        { s with
          outFifo := f
          nextOut := s.nextOut ++ out
          availOut := s.availOut - out.length
          totalOut := s.totalOut + out.length }
  full : s'.availOut = 0 ∨ s'.outFifo.contents = []

theorem deflateWriteOutFifoLoop_spec
    (fuel : Nat) (s : DeflStream)
    (hFuel : s.availOut ≤ fuel) :
    DrainedTo s (deflateWriteOutFifoLoop fuel s) := by
  induction fuel generalizing s with
  | zero =>
      refine ⟨⟨[], s.outFifo, by simp, by simp, ?_⟩,
        Or.inl (Nat.le_zero.mp hFuel)⟩
      simp [deflateWriteOutFifoLoop]
  | succ fuel ih =>
      unfold deflateWriteOutFifoLoop
      by_cases hFull : s.availOut = 0
      · rw [if_pos hFull]
        exact ⟨⟨[], s.outFifo, by simp, by simp, by simp⟩,
          Or.inl hFull⟩
      · rw [if_neg hFull]
        cases hPop : s.outFifo.fifoPop with
        | none =>
            have hEmpty :=
              (ZedcFifo.fifoPop_eq_none_iff _).mp hPop
            exact ⟨⟨[], s.outFifo, by simp, by simp, by simp⟩,
              Or.inr hEmpty⟩
        | some popped =>
            rcases popped with ⟨data, f⟩
            have hHead := ZedcFifo.contents_of_fifoPop hPop
            have hRest := ih
              (pushOutputByte { s with outFifo := f } data)
              (by
                simp only [pushOutputByte, hFull, if_false]
                omega)
            rcases hRest with
              ⟨⟨out, f', hOut, hLen, hEq⟩, hEnd⟩
            simp only [pushOutputByte, hFull, if_false]
              at hOut hLen hEq hEnd
            refine ⟨⟨data :: out, f', ?_, ?_, ?_⟩, ?_⟩
            · rw [hHead, hOut]
              rfl
            · rw [List.length_cons]
              omega
            · simp only [pushOutputByte, hFull, if_false, hEq,
                List.length_cons, List.append_assoc,
                List.singleton_append]
              congr 1 <;> omega
            · simpa [pushOutputByte, hFull] using hEnd

/-
  The FIFO goes out in order until it is empty or the output
  buffer is full.
-/
theorem deflateWriteOutFifo_spec (s : DeflStream) :
    DrainedTo s (deflateWriteOutFifo s) :=
  deflateWriteOutFifoLoop_spec _ s (Nat.le_refl _)

/- Draining moves bits, it does not change them. -/
theorem DrainedTo.emitted_eq
    {s s' : DeflStream} (hDrained : DrainedTo s s') :
    emitted s' = emitted s := by
  rcases hDrained.eq with ⟨out, f, hOut, _, rfl⟩
  simp [emitted, hOut]

------------------------------------------------------------
-- End of Block and Flush Marker
------------------------------------------------------------

/- `bmsk`: the mask that isolates the valid low bits. -/
def bmsk (onumbits : Nat) : UInt8 :=
  [0xff, 0x01, 0x03, 0x07, 0x0f, 0x1f, 0x3f, 0x7f].getD
    onumbits 0

/- `deflate_write_eob` -/
def deflateWriteEob (s : DeflStream) : DeflStream :=
  if s.eobAdded then s
  else if s.onumbits ≥ 8 then s
  else
    let f :=
      if s.onumbits = 0 then
        ((s.outFifo.fifoPush 0x80).fifoPush 0x01).fifoPush
          0x00
      else
        ((s.outFifo.fifoPush
              (s.obyte &&& bmsk s.onumbits)).fifoPush
            (UInt8.ofNat
              (0x03 <<< (s.onumbits - 1)))).fifoPush 0x00
    { s with
      outFifo := f
      onumbits := 0
      eobAdded := true }

/- `deflate_sync_flush` -/
def deflateSyncFlush (s : DeflStream) : DeflStream :=
  let f :=
    if s.onumbits = 0 then
      (s.outFifo.fifoPush 0).fifoPush 0
    else
      let f :=
        (s.outFifo.fifoPush
          (s.obyte &&& bmsk s.onumbits)).fifoPush 0
      if s.onumbits > 6 then f.fifoPush 0 else f
  { s with
    outFifo :=
      (((f.fifoPush 0).fifoPush 0).fifoPush 0xff).fifoPush
        0xff
    obyte := hdrBtypeFixed
    onumbits := 3 }

/- The valid bits of the partial byte, masked out of it. -/
theorem byteBits_and_bmsk
    (obyte : UInt8)
    {onumbits : Nat}
    (hPos : onumbits ≠ 0)
    (hLt : onumbits < 8) :
    byteBits (obyte &&& bmsk onumbits) =
      (byteBits obyte).take onumbits ++
        List.replicate (8 - onumbits) false := by
  apply byteBits_and_mask obyte _ onumbits (by omega)
  interval_cases onumbits
  · exact absurd rfl hPos
  all_goals rfl

/- The bytes that end the last block, by the bits left over. -/
def eobBytes (onumbits : Nat) (obyte : UInt8) :
    List UInt8 :=
  if onumbits = 0 then [0x80, 0x01, 0x00]
  else
    [obyte &&& bmsk onumbits,
      UInt8.ofNat (0x03 <<< (onumbits - 1)), 0x00]

/- The bytes of a flush marker, by the bits left over. -/
def syncBytes (onumbits : Nat) (obyte : UInt8) :
    List UInt8 :=
  (if onumbits = 0 then [0x00, 0x00]
    else
      [obyte &&& bmsk onumbits, 0x00] ++
        (if onumbits > 6 then [0x00] else [])) ++
    emptyStored

/-
  The hand-computed closing bytes are the closing bits behind
  the bits left over.
-/
theorem bitsOf_eobBytes
    (obyte : UInt8)
    {onumbits : Nat}
    (hLt : onumbits < 8) :
    bitsOf (eobBytes onumbits obyte) =
      closing ((byteBits obyte).take onumbits) := by
  by_cases hZero : onumbits = 0
  · subst hZero
    simp only [eobBytes, if_true, List.take_zero]
    decide
  · have hTake :
        ((byteBits obyte).take onumbits).length =
          onumbits := by
      simp
      omega
    simp only [eobBytes, hZero, if_false, bitsOf_cons,
      byteBits_and_bmsk obyte hZero hLt, closing, padByte,
      List.length_append, hTake, List.append_assoc]
    congr 1
    interval_cases onumbits <;> first | contradiction | decide

/- The same for the bytes of a flush marker. -/
theorem bitsOf_syncBytes
    (obyte : UInt8)
    {onumbits : Nat}
    (hLt : onumbits < 8) :
    bitsOf (syncBytes onumbits obyte) =
      flushed ((byteBits obyte).take onumbits) := by
  by_cases hZero : onumbits = 0
  · subst hZero
    simp only [syncBytes, if_true, List.take_zero]
    decide
  · have hTake :
        ((byteBits obyte).take onumbits).length =
          onumbits := by
      simp
      omega
    simp only [syncBytes, hZero, if_false, bitsOf_cons,
      List.cons_append, byteBits_and_bmsk obyte hZero hLt,
      flushed, padByte, List.length_append, hTake,
      List.append_assoc]
    congr 1
    interval_cases onumbits <;> first | contradiction | decide

/-
  Ending the last block closes the bit stream once, if the
  FIFO has room for three bytes.
-/
theorem deflateWriteEob_spec
    (s : DeflStream)
    (hBits : s.onumbits < 8)
    (hOpen : s.eobAdded = false)
    (hRoom : s.outFifo.contents.length + 3 ≤ 255) :
    ∃ f,
      deflateWriteEob s =
        { s with
          outFifo := f
          onumbits := 0
          eobAdded := true } ∧
      f.contents =
        s.outFifo.contents ++
          eobBytes s.onumbits s.obyte := by
  unfold deflateWriteEob
  rw [if_neg (by simp [hOpen]), if_neg (by omega)]
  refine ⟨_, rfl, ?_⟩
  have hPush := ZedcFifo.contents_fifoPushAll s.outFifo
    (eobBytes s.onumbits s.obyte) (by
      unfold eobBytes
      split <;> simpa using hRoom)
  by_cases hZero : s.onumbits = 0
  · simpa [hZero, eobBytes, ZedcFifo.fifoPushAll] using hPush
  · simpa [hZero, eobBytes, ZedcFifo.fifoPushAll] using hPush

/-
  A flush marker goes behind the bits left over, if the FIFO
  has room for seven bytes.
-/
theorem deflateSyncFlush_spec
    (s : DeflStream)
    (hRoom : s.outFifo.contents.length + 7 ≤ 255) :
    ∃ f,
      deflateSyncFlush s =
        { s with
          outFifo := f
          obyte := hdrBtypeFixed
          onumbits := 3 } ∧
      f.contents =
        s.outFifo.contents ++
          syncBytes s.onumbits s.obyte := by
  refine ⟨_, rfl, ?_⟩
  have hPush := ZedcFifo.contents_fifoPushAll s.outFifo
    (syncBytes s.onumbits s.obyte) (by
      have hLen :
          (syncBytes s.onumbits s.obyte).length ≤ 7 := by
        unfold syncBytes
        split
        · decide
        · split <;> simp [emptyStored]
      omega)
  by_cases hZero : s.onumbits = 0
  · simpa [hZero, syncBytes, emptyStored,
      ZedcFifo.fifoPushAll] using hPush
  · by_cases hSix : s.onumbits > 6
    · simpa [hZero, hSix, syncBytes, emptyStored,
        ZedcFifo.fifoPushAll] using hPush
    · simpa [hZero, hSix, syncBytes, emptyStored,
        ZedcFifo.fifoPushAll] using hPush

------------------------------------------------------------
-- Format Header
------------------------------------------------------------

/- The string length that `strlen` returns, in 32 bits. -/
def strLen (str : Option (List UInt8)) : Nat :=
  (str.getD []).length % 2 ^ 32

/- The flag byte: FTEXT, FHCRC, FEXTRA, FNAME, FCOMMENT. -/
def gzipFlg (h : GzipHead) : UInt8 :=
  (if strLen h.name ≠ 0 then 0x08 else 0x00) |||
  (if strLen h.comment ≠ 0 then 0x10 else 0x00) |||
  (if h.extra.isSome then 0x04 else 0x00) |||
  (if h.xflags &&& 0x01 ≠ 0 then 0x01 else 0x00) |||
  (if h.xflags &&& 0x02 ≠ 0 then 0x02 else 0x00)

/- The FEXTRA field: its length in two bytes and its data. -/
def extraField (h : GzipHead) : List UInt8 :=
  match h.extra with
  | none => []
  | some extra =>
      [UInt8.ofNat extra.length,
        UInt8.ofNat (extra.length >>> 8)] ++ extra

/- A string field, with the terminating zero. -/
def stringField (str : Option (List UInt8)) :
    List UInt8 :=
  if strLen str ≠ 0 then (str.getD []) ++ [0x00] else []

/-
  What is pushed of a string: as many bytes as `strlen` has
  returned, and one more.
-/
def pushedString (str : Option (List UInt8)) :
    List UInt8 :=
  if strLen str ≠ 0 then
    (str.getD [] ++ [0x00]).take (strLen str + 1)
  else []

/- A field of less than 4 GiB is pushed as it is. -/
theorem pushedString_eq
    {str : Option (List UInt8)}
    (hLen : (stringField str).length ≤ 255) :
    pushedString str = stringField str := by
  unfold pushedString stringField at *
  by_cases hSome : strLen str ≠ 0
  · rw [if_pos hSome] at hLen ⊢
    rw [if_pos hSome]
    have hAll : strLen str = (str.getD []).length := by
      rw [List.length_append, List.length_singleton] at hLen
      exact Nat.mod_eq_of_lt (by omega)
    apply List.take_of_length_le
    rw [hAll, List.length_append, List.length_singleton]
  · rw [if_neg hSome, if_neg hSome]

/- The dummy header checksum. -/
def hcrcField (h : GzipHead) : List UInt8 :=
  if h.xflags &&& 0x02 ≠ 0 then [0xde, 0xef] else []

/- The three optional parts together exceed 240 bytes. -/
def gzipHeadTooLong (h : GzipHead) : Bool :=
  (strLen h.name + strLen h.comment + strLen h.extra) %
    2 ^ 32 > 240

/-
  `deflate_add_header`; the flag is its non-zero return. The
  optional fields are pushed when their flag is set, which is
  when they are not empty here.
-/
def deflateAddHeader
    (now : UInt32)
    (s : DeflStream) : Bool × DeflStream :=
  match s.format with
  | .defl => (false, s)
  | .gzip =>
      let f := s.outFifo.fifoPushAll [0x1f, 0x8b, 0x08]
      match s.gzipHead with
      | none =>
          let f := (f.fifoPush 0x00).fifoPush32 (le32 now)
          let f := (f.fifoPush 0x04).fifoPush 0xff
          (false,
            { s with outFifo := f, headerAdded := true })
      | some h =>
          if gzipHeadTooLong h then
            (true, { s with outFifo := f })
          else
            let f :=
              (f.fifoPush (gzipFlg h)).fifoPush32
                (le32 h.time)
            let f := (f.fifoPush 0x04).fifoPush h.os
            let f := f.fifoPushAll (extraField h)
            let f := f.fifoPushAll (pushedString h.name)
            let f := f.fifoPushAll (pushedString h.comment)
            let f := f.fifoPushAll (hcrcField h)
            (false,
              { s with outFifo := f, headerAdded := true })
  | .zlib =>
      let f :=
        if s.havedict then
          ((s.outFifo.fifoPush 0x78).fifoPush
            0xbb).fifoPush32 (be32 s.dictAdler32)
        else (s.outFifo.fifoPush 0x78).fifoPush 0x9c
      (false, { s with outFifo := f, headerAdded := true })

/- The bytes of a GZIP header with the given fields. -/
def gzipHeader
    (flg : UInt8)
    (time : UInt32)
    (os : UInt8)
    (fields : List UInt8) : List UInt8 :=
  [0x1f, 0x8b, 0x08, flg] ++ le32 time ++ [0x04, os] ++
    fields

/- The format header as RFC 1950 and RFC 1952 lay it out. -/
def formatHeader (now : UInt32) (s : DeflStream) :
    List UInt8 :=
  match s.format with
  | .defl => []
  | .gzip =>
      match s.gzipHead with
      | none => gzipHeader 0x00 now 0xff []
      | some h =>
          gzipHeader (gzipFlg h) h.time h.os
            (extraField h ++ stringField h.name ++
              stringField h.comment ++ hcrcField h)
  | .zlib =>
      if s.havedict then
        [0x78, 0xbb] ++ be32 s.dictAdler32
      else [0x78, 0x9c]

/- The fixed part of a GZIP header and fields behind it. -/
theorem contents_gzipHeader
    (f : ZedcFifo)
    (flg os : UInt8)
    (time : UInt32)
    (fields : List UInt8)
    (hEmpty : f.contents = [])
    (hLen :
      (gzipHeader flg time os fields).length ≤ 255) :
    ((((((f.fifoPushAll [0x1f, 0x8b, 0x08]).fifoPush
        flg).fifoPush32 (le32 time)).fifoPush
          0x04).fifoPush os).fifoPushAll fields).contents =
      gzipHeader flg time os fields := by
  have hFields : fields.length ≤ 245 := by
    simp [gzipHeader] at hLen
    omega
  have hId := ZedcFifo.contents_fifoPushAll f
    [0x1f, 0x8b, 0x08, flg] (by simp [hEmpty])
  have hTime := ZedcFifo.contents_fifoPush32
    (f.fifoPushAll [0x1f, 0x8b, 0x08, flg])
    (le32 time) (by simp) (by simp [hId, hEmpty])
  have hRest := ZedcFifo.contents_fifoPushAll
    ((f.fifoPushAll [0x1f, 0x8b, 0x08, flg]).fifoPush32
      (le32 time))
    ([0x04, os] ++ fields) (by
      rw [hTime, hId, hEmpty]
      simp
      omega)
  rw [hTime, hId, hEmpty] at hRest
  simpa [gzipHeader, ZedcFifo.fifoPushAll] using hRest

/-
  A header that fits goes into an empty FIFO as a whole,
  unless its fields are refused as too long.
-/
theorem deflateAddHeader_spec
    (now : UInt32)
    (s : DeflStream)
    (hEmpty : s.outFifo.contents = [])
    (hLen : (formatHeader now s).length ≤ 255)
    (hOk : (deflateAddHeader now s).1 = false) :
    ∃ f,
      (deflateAddHeader now s).2 =
        { s with
          outFifo := f
          headerAdded :=
            s.headerAdded || s.format != .defl } ∧
      f.contents = formatHeader now s := by
  unfold deflateAddHeader formatHeader at *
  cases hFormat : s.format with
  | defl =>
      refine ⟨s.outFifo, ?_, by simpa using hEmpty⟩
      simp [← hFormat]
  | zlib =>
      simp only [hFormat] at hLen hOk ⊢
      refine ⟨_, by simp; rfl, ?_⟩
      cases s.havedict with
      | true =>
          have hTwo := ZedcFifo.contents_fifoPushAll
            s.outFifo [0x78, 0xbb] (by simp [hEmpty])
          have hFour := ZedcFifo.contents_fifoPush32
            (s.outFifo.fifoPushAll [0x78, 0xbb])
            (be32 s.dictAdler32) (by simp)
            (by simp [hTwo, hEmpty])
          rw [hTwo, hEmpty] at hFour
          simpa [ZedcFifo.fifoPushAll] using hFour
      | false =>
          have hTwo := ZedcFifo.contents_fifoPushAll
            s.outFifo [0x78, 0x9c] (by simp [hEmpty])
          simpa [ZedcFifo.fifoPushAll, hEmpty] using hTwo
  | gzip =>
      simp only [hFormat] at hLen hOk ⊢
      cases hHead : s.gzipHead with
      | none =>
          simp only [hHead] at hLen hOk ⊢
          refine ⟨_, by simp; rfl, ?_⟩
          simpa [ZedcFifo.fifoPushAll] using
            contents_gzipHeader s.outFifo 0x00 0xff now []
              hEmpty hLen
      | some h =>
          simp only [hHead] at hLen hOk ⊢
          by_cases hLong : gzipHeadTooLong h
          · simp [hLong] at hOk
          · have hParts := hLen
            simp only [gzipHeader, List.length_append]
              at hParts
            have hName :=
              @pushedString_eq h.name (by omega)
            have hComment :=
              @pushedString_eq h.comment (by omega)
            simp only [hLong, hName, hComment] at hOk ⊢
            refine ⟨_, by simp; rfl, ?_⟩
            simpa [ZedcFifo.fifoPushAll] using
              contents_gzipHeader s.outFifo (gzipFlg h) h.os
                h.time _ hEmpty hLen

------------------------------------------------------------
-- Format Trailer
------------------------------------------------------------

/- `deflate_add_trailer` -/
def deflateAddTrailer (s : DeflStream) : DeflStream :=
  if !s.eobAdded then s
  else if s.trailerAdded then s
  else
    let f :=
      match s.format with
      | .defl => s.outFifo
      | .gzip =>
          (s.outFifo.fifoPush32 (le32 s.crc32)).fifoPush32
            (le32 (UInt32.ofNat s.totalIn))
      | .zlib => s.outFifo.fifoPush32 (be32 s.adler32)
    { s with outFifo := f, trailerAdded := true }

/- The trailer as RFC 1950 and RFC 1952 lay it out. -/
def formatTrailer
    (format : Format)
    (crc32 adler32 : UInt32)
    (totalIn : Nat) : List UInt8 :=
  match format with
  | .defl => []
  | .gzip =>
      le32 crc32 ++ le32 (UInt32.ofNat totalIn)
  | .zlib => be32 adler32

/- The trailer goes behind the end of the last block. -/
theorem deflateAddTrailer_spec
    (s : DeflStream)
    (hEob : s.eobAdded = true)
    (hTrailer : s.trailerAdded = false)
    (hRoom : s.outFifo.contents.length + 8 ≤ 255) :
    ∃ f,
      deflateAddTrailer s =
        { s with outFifo := f, trailerAdded := true } ∧
      f.contents =
        s.outFifo.contents ++
          formatTrailer s.format s.crc32 s.adler32
            s.totalIn := by
  unfold deflateAddTrailer
  rw [if_neg (by simp [hEob]), if_neg (by simp [hTrailer])]
  refine ⟨_, rfl, ?_⟩
  unfold formatTrailer
  cases s.format with
  | defl => simp
  | gzip =>
      have hFirst := ZedcFifo.contents_fifoPush32 s.outFifo
        (le32 s.crc32) (by simp) (by omega)
      have hSecond := ZedcFifo.contents_fifoPush32
        (s.outFifo.fifoPush32 (le32 s.crc32))
        (le32 (UInt32.ofNat s.totalIn)) (by simp) (by
          rw [hFirst, List.length_append, length_le32]
          omega)
      rw [hSecond, hFirst, List.append_assoc]
  | zlib =>
      exact ZedcFifo.contents_fifoPush32 _ _ (by simp)
        (by omega)

end Zedc
