import GenWqe.Deflate.Output
import GenWqe.Inflate.Verdict

/-
  A trailer that deflate writes, read by inflate over any
  calls.

  Key definitions include:
    * `WritesTrailer`
    * `readTrailer`
    * `TrailerAgreement`

  Main results:
    * `readTrailer_result`
    * `trailer_agreement_iff`
-/

------------------------------------------------------------
-- Writing a Trailer
------------------------------------------------------------

namespace Zedc

instance (s : InflStream) : Decidable (TrailerComplete s) :=
  inferInstanceAs (Decidable (_ ∧ _))

/- `t` is the whole trailer that the stream `w` pushes. -/
structure WritesTrailer
    (w : DeflStream) (t : List UInt8) : Prop where
  eob : w.eobAdded = true
  trailer : w.trailerAdded = false
  pushed :
    (deflateAddTrailer w).outFifo.contents =
      w.outFifo.contents ++ t
  whole : t.length = trailerLen w.format

theorem length_formatTrailer
    (format : Format)
    (crc32 adler32 : UInt32)
    (n : Nat) :
    (formatTrailer format crc32 adler32 n).length =
      trailerLen format := by
  cases format <;> rfl

/- What is pushed as a whole is what the RFC lays out. -/
theorem WritesTrailer.eq
    {w : DeflStream}
    {t : List UInt8}
    (hWrites : WritesTrailer w t) :
    t = formatTrailer w.format w.crc32 w.adler32
      w.totalIn := by
  have hPushed := hWrites.pushed
  have hLen := congrArg List.length hPushed
  have hUsed :=
    (deflateAddTrailer w).outFifo.fifoUsed_lt
  rw [List.length_append, ZedcFifo.length_contents,
    hWrites.whole] at hLen
  simp only [zedcFifoSize] at hUsed
  unfold deflateAddTrailer at hPushed
  rw [if_neg (by simp [hWrites.eob]),
    if_neg (by simp [hWrites.trailer])] at hPushed
  simp only at hPushed
  unfold formatTrailer
  cases hFormat : w.format with
  | defl =>
      rw [hFormat] at hPushed
      exact (List.self_eq_append_right.mp hPushed)
  | zlib =>
      rw [hFormat] at hPushed hLen
      simp only [trailerLen] at hLen
      rw [ZedcFifo.contents_fifoPush32 _ _ (by simp)
        (by omega)] at hPushed
      exact (List.append_cancel_left hPushed).symm
  | gzip =>
      rw [hFormat] at hPushed hLen
      simp only [trailerLen] at hLen
      have hFirst := ZedcFifo.contents_fifoPush32 w.outFifo
        (le32 w.crc32) (by simp) (by omega)
      rw [ZedcFifo.contents_fifoPush32 _ _ (by simp) (by
          rw [hFirst, List.length_append, length_le32]
          omega),
        hFirst, List.append_assoc] at hPushed
      exact (List.append_cancel_left hPushed).symm

------------------------------------------------------------
-- Reading a Trailer
------------------------------------------------------------

/- The checksum the reader computed, as a trailer has it. -/
def InflStream.checksum (s : InflStream) : List UInt8 :=
  match s.format with
  | .defl => []
  | .gzip => le32 s.crc32
  | .zlib => be32 s.adler32

/- The bytes the reader produced, delivered or parked. -/
def InflStream.produced (s : InflStream) : Nat :=
  s.totalOut + s.dict.obytesInDict

/- The trailer that belongs to what the reader produced. -/
def InflStream.rightTrailer (s : InflStream) : List UInt8 :=
  formatTrailer s.format s.crc32 s.adler32 s.produced

/-
  Calls of `zedc_inflate` behind a call that came to `result`,
  as long as they return `ZEDC_OK` and the trailer is not
  complete.
-/
def readOn (src : ByteMem) :
    List InflateCall → Rc × InflStream →
      Option (Rc × InflStream)
  | [], result => some result
  | call :: calls, (rc, s) =>
    if rc = .ok ∧ ¬ TrailerComplete s then
      match zedcInflate call.flush call.env
          (s.offer src call) with
      | none => none
      | some ret => readOn src calls (ret.rc, ret.strm)
    else some (rc, s)

/-
  The trailer of `s`, from the call on that found the end of
  the final block.
-/
def readTrailer
    (src : ByteMem)
    (calls : List InflateCall)
    (s : InflStream) : Option (Rc × InflStream) :=
  readOn src calls (inflateTrailer s)

/- The final block was seen, and no byte of the trailer. -/
structure TrailerStart
    (src : ByteMem) (s : InflStream) : Prop where
  final : finalEob s.asv.inflStat = true
  len : s.postfx.len = 0
  idx : s.postfx.idx = 0
  dict : s.dict.obytesInDict ≤ s.dict.dictLen
  fed : FedFrom src s

/- The calls offer the trailer, none of them too much. -/
structure OffersTrailer
    (s : InflStream) (calls : List InflateCall) : Prop where
  small :
    ∀ call ∈ calls, call.availIn ≤ zedcInflAvailInMax
  all :
    trailerLen s.format ≤
      s.availIn + (calls.map InflateCall.availIn).sum

/- A call without an error completed the trailer. -/
def TrailerAccepted
    (result : Option (Rc × InflStream)) : Prop :=
  ∃ rc s,
    result = some (rc, s) ∧ ¬ rc.IsNegative ∧
      TrailerComplete s

/- A call returned `ZEDC_DATA_ERROR`. -/
def TrailerDenied
    (result : Option (Rc × InflStream)) : Prop :=
  ∃ s, result = some (.dataError, s)

theorem TrailerDenied.not_accepted
    {result : Option (Rc × InflStream)}
    (hDenied : TrailerDenied result) :
    ¬ TrailerAccepted result := by
  rintro ⟨rc, s, hSome, hRc, _⟩
  rcases hDenied with ⟨s', hSome'⟩
  rw [hSome] at hSome'
  cases hSome'
  exact hRc (by decide)

------------------------------------------------------------
-- One Call
------------------------------------------------------------

section Reading

variable {src : ByteMem} {s₀ s s' : InflStream}

/- A part of the trailer behind `s₀` has been read. -/
structure Reading
    (src : ByteMem) (s₀ s : InflStream) : Prop
    extends AtTrailer src s₀.format s₀.totalIn s where
  crc32 : s.crc32 = s₀.crc32
  adler32 : s.adler32 = s₀.adler32
  dict : s.dict.obytesInDict ≤ s.dict.dictLen

theorem TrailerStart.reading
    (hStart : TrailerStart src s₀) : Reading src s₀ s₀ :=
  ⟨AtTrailer.begin hStart.len hStart.idx rfl hStart.final,
    rfl, rfl, hStart.dict⟩

theorem Reading.matches_iff
    (hReading : Reading src s₀ s)
    (hFormat : s₀.format ≠ .defl)
    (hRead : 4 ≤ s.postfx.idx) :
    TrailerMatches s ↔
      src.window s₀.totalIn 4 = s₀.checksum := by
  have hBytes :
      s.postfx.bytes.window 0 4 =
        src.window s₀.totalIn 4 := by
    have hTake := congrArg (List.take 4) hReading.bytes
    rw [ByteMem.take_window, ByteMem.take_window,
      Nat.min_eq_left hRead] at hTake
    exact hTake
  unfold TrailerMatches InflStream.checksum
  rw [hReading.format, ← hBytes]
  cases hKind : s₀.format with
  | defl => exact absurd hKind hFormat
  | zlib =>
      simp only
      rw [hReading.adler32, ← be32_readBe32]
      exact ⟨fun hEq => congrArg be32 hEq, be32_inj⟩
  | gzip =>
      simp only
      rw [hReading.crc32, ← le32_readLe32]
      exact ⟨fun hEq => congrArg le32 hEq, le32_inj⟩

/-
  What looking at the trailer comes to, where `read` bytes of
  it would be read with all the input.
-/
inductive ReadOutcome
    (src : ByteMem) (s₀ : InflStream) (read : Nat) :
    Rc × InflStream → Prop where
  | denied {s : InflStream}
      (hDiffer : src.window s₀.totalIn 4 ≠ s₀.checksum) :
      ReadOutcome src s₀ read (.dataError, s)
  | accepted {rc : Rc} {s : InflStream}
      (hSame : src.window s₀.totalIn 4 = s₀.checksum)
      (hRc : ¬ rc.IsNegative)
      (hAll : TrailerComplete s) :
      ReadOutcome src s₀ read (rc, s)
  | more {s : InflStream}
      (hReading : Reading src s₀ s)
      (hMore : ¬ TrailerComplete s)
      (hIdx : s.postfx.idx = read)
      (hLess : read < trailerLen s₀.format) :
      ReadOutcome src s₀ read (.ok, s)

theorem Reading.trailer
    (hReading : Reading src s₀ s)
    (hFormat : s₀.format ≠ .defl)
    (hFed : FedFrom src s)
    (hOpen : s.postfx.idx ≠ trailerLen s₀.format) :
    ReadOutcome src s₀ (s.postfx.idx + s.availIn)
      (inflateTrailer s) := by
  have hDefl : s.format ≠ .defl := by
    rw [hReading.format]
    exact hFormat
  have hFour := trailerLen_ge hDefl
  rw [← hReading.format] at hOpen
  unfold inflateTrailer
  cases hRemove : inflateFormatRemTrailer s with
  | mk result s₁ =>
      rcases inflateFormatRemTrailer_spec hDefl hReading.ok
        hRemove with ⟨⟨k, hTaken⟩, hRemoved, hFailed⟩
      have hStrm := hTaken.strm
      have hIdx := hTaken.idx
      have hLen := hTaken.len
      have hOk := hTaken.ok
      have hReading₁ : Reading src s₀ s₁ := by
        refine ⟨hReading.toAtTrailer.removed hFed hTaken,
          ?_, ?_, ?_⟩ <;> rw [hStrm]
        · exact hReading.crc32
        · exact hReading.adler32
        · exact hReading.dict
      have hMatch := hReading₁.matches_iff hFormat
      rcases result with _ | _ | code
      · rcases hRemoved rfl with ⟨hAll, hBefore | hSame⟩
        · exact absurd hBefore hOpen
        have hComplete : TrailerComplete s₁ :=
          ⟨by omega, by omega⟩
        have hWindow := (hMatch (by omega)).mp hSame
        simp only
        split
        · exact .accepted hWindow (by decide) hComplete
        · exact .accepted hWindow (by decide) hComplete
      · have hRest := inflateFormatRemTrailer_more hRemove
        rcases hRest with ⟨hNone, hNe⟩ | hOver
        · have hDrop : s.nextIn.drop k = [] := by
            rw [hStrm] at hNone
            exact hNone
          have hLe := hTaken.le
          have hAll : k = s.availIn :=
            Nat.le_antisymm hLe
              (List.drop_eq_nil_iff.mp hDrop)
          rw [hReading.format] at hLen
          refine .more hReading₁ (fun h => hNe h.2) ?_ ?_
          · rw [hIdx, hAll]
          · rw [← hAll, ← hIdx, ← hLen]
            omega
        · omega
      · rcases hFailed code rfl with ⟨hDiffer, hFourRead⟩
        exact .denied fun hSame =>
          hDiffer ((hMatch hFourRead).mpr hSame)

/- Behind the final block a call looks at the trailer. -/
theorem zedcInflate_final
    (flush : Flush)
    (env : InflateEnv)
    (s : InflStream)
    (hFinal : finalEob s.asv.inflStat = true)
    (hSmall : s.availIn ≤ zedcInflAvailInMax)
    (hDict : s.dict.obytesInDict ≤ s.dict.dictLen) :
    ∃ n,
      zedcInflate flush env s =
        some ⟨(inflateTrailer (s.atTrailer n)).1,
          (inflateTrailer (s.atTrailer n)).2, none⟩ := by
  rcases inflateFlushOutputBuffer_spec s with
    ⟨s₁, n, hFlush, hFlushed⟩ | ⟨_, hOver⟩
  · refine ⟨n, ?_⟩
    have hSeen : inflateEobSeen s₁ = s.atTrailer n := by
      rw [hFlushed.strm]
      exact if_pos hFinal
    unfold zedcInflate inflatePrepare
    rw [if_neg (Nat.not_lt.mpr hSmall), hFlush]
    simp only [ne_eq, not_true_eq_false, if_false]
    rw [hSeen]
    unfold inflateEntry
    have hEob : (s.atTrailer n).eobSeen = true := rfl
    rw [if_pos hEob]
  · omega

theorem Reading.offer
    {call : InflateCall}
    (n : Nat)
    (hReading : Reading src s₀ s) :
    Reading src s₀ ((s.offer src call).atTrailer n) := by
  refine ⟨hReading.toAtTrailer.congr rfl rfl rfl rfl,
    hReading.crc32, hReading.adler32, ?_⟩
  exact (Nat.sub_le _ _).trans hReading.dict

------------------------------------------------------------
-- All Calls
------------------------------------------------------------

/- What the calls come to that offer the rest. -/
theorem readOn_result
    {calls : List InflateCall}
    {read : Nat}
    {result : Rc × InflStream}
    (hFormat : s₀.format ≠ .defl)
    (hOutcome : ReadOutcome src s₀ read result)
    (hSmall :
      ∀ call ∈ calls, call.availIn ≤ zedcInflAvailInMax)
    (hAll :
      trailerLen s₀.format ≤
        read + (calls.map InflateCall.availIn).sum) :
    (src.window s₀.totalIn 4 ≠ s₀.checksum →
      TrailerDenied (readOn src calls result)) ∧
    (src.window s₀.totalIn 4 = s₀.checksum →
      TrailerAccepted (readOn src calls result)) := by
  induction calls generalizing read result with
  | nil =>
      cases hOutcome with
      | denied hDiffer =>
          exact ⟨fun _ => ⟨_, rfl⟩, fun h => absurd h hDiffer⟩
      | accepted hSame hRc hComplete =>
          exact ⟨fun h => absurd hSame h,
            fun _ => ⟨_, _, rfl, hRc, hComplete⟩⟩
      | more hReading hMore hIdx hLess =>
          simp only [List.map_nil, List.sum_nil] at hAll
          omega
  | cons call calls ih =>
      cases hOutcome with
      | denied hDiffer =>
          refine ⟨fun _ => ⟨_, if_neg ?_⟩,
            fun h => absurd h hDiffer⟩
          exact fun h => nomatch h.1
      | accepted hSame hRc hComplete =>
          refine ⟨fun h => absurd hSame h,
            fun _ => ⟨_, _, if_neg ?_, hRc, hComplete⟩⟩
          exact fun h => h.2 hComplete
      | @more s hReading hMore hIdx hLess =>
          have hLen : (s.offer src call).availIn =
              call.availIn := by
            simp [InflStream.offer, InflStream.availIn]
          have hLe := hSmall call List.mem_cons_self
          rcases zedcInflate_final call.flush call.env
              (s.offer src call) hReading.final
              (hLen.le.trans hLe) hReading.dict with
            ⟨n, hCall⟩
          have hNext :=
            (hReading.offer n).trailer hFormat
              (fedFrom_offer src call s)
              (by exact hIdx ▸ hLess.ne)
          unfold readOn
          rw [if_pos ⟨rfl, hMore⟩, hCall]
          refine ih hNext
            (fun c hMem =>
              hSmall c (List.mem_cons_of_mem _ hMem)) ?_
          have hRead :
              ((s.offer src call).atTrailer n).postfx.idx =
                read := hIdx
          have hAvail :
              ((s.offer src call).atTrailer n).availIn =
                call.availIn := hLen
          rw [List.map_cons, List.sum_cons] at hAll
          omega

/- All of the trailer is offered, and its verdict is that of
   its first four bytes. -/
theorem readTrailer_result
    {calls : List InflateCall}
    (hFormat : s₀.format ≠ .defl)
    (hStart : TrailerStart src s₀)
    (hOffers : OffersTrailer s₀ calls) :
    (src.window s₀.totalIn 4 ≠ s₀.checksum →
      TrailerDenied (readTrailer src calls s₀)) ∧
    (src.window s₀.totalIn 4 = s₀.checksum →
      TrailerAccepted (readTrailer src calls s₀)) := by
  have hFour := trailerLen_ge hFormat
  have hIdx := hStart.idx
  refine readOn_result hFormat
    (hStart.reading.trailer hFormat hStart.fed (by omega))
    hOffers.small ?_
  rw [hIdx, Nat.zero_add]
  exact hOffers.all

end Reading

------------------------------------------------------------
-- Agreement
------------------------------------------------------------

section Agreement

variable {src : ByteMem} {s : InflStream}
variable {calls : List InflateCall}

/- The trailer in the stream `src`, behind the data. -/
def InflStream.trailerIn
    (src : ByteMem) (s : InflStream) : List UInt8 :=
  src.window s.totalIn (trailerLen s.format)

/- Checksum and length written are those of the reader. -/
def SameData (w : DeflStream) (s : InflStream) : Prop :=
  match s.format with
  | .defl => True
  | .gzip =>
      w.crc32 = s.crc32 ∧ w.totalIn ≡ s.produced [MOD 2 ^ 32]
  | .zlib => w.adler32 = s.adler32

/-
  A written trailer is accepted exactly if checksum and length
  are the reader's, and any trailer but the right one is a
  data error.
-/
structure TrailerAgreement
    (src : ByteMem)
    (calls : List InflateCall)
    (s : InflStream) : Prop where
  written :
    ∀ w : DeflStream, w.format = s.format →
      WritesTrailer w (s.trailerIn src) →
        (TrailerAccepted (readTrailer src calls s) ↔
          SameData w s)
  wrong :
    s.trailerIn src ≠ s.rightTrailer →
      TrailerDenied (readTrailer src calls s)

/- The length of a GZIP trailer is wrong, and only that. -/
def OnlySizeWrong
    (src : ByteMem) (s : InflStream) : Prop :=
  s.format = .gzip ∧
    src.window s.totalIn 4 = le32 s.crc32 ∧
    src.window (s.totalIn + 4) 4 ≠
      le32 (UInt32.ofNat s.produced)

theorem trailerIn_gzip
    (hGzip : s.format = .gzip) :
    s.trailerIn src =
      src.window s.totalIn 4 ++
        src.window (s.totalIn + 4) 4 := by
  unfold InflStream.trailerIn
  rw [hGzip]
  exact ByteMem.window_add src s.totalIn 4 4

theorem ofNat_eq_iff {m n : Nat} :
    UInt32.ofNat m = UInt32.ofNat n ↔
      m ≡ n [MOD 2 ^ 32] := by
  rw [← UInt32.toNat_inj, UInt32.toNat_ofNat',
    UInt32.toNat_ofNat']
  exact Iff.rfl

/- The data agree exactly if the trailers do. -/
theorem sameData_iff
    {w : DeflStream}
    (hFormat : w.format = s.format)
    (hWrites : WritesTrailer w (s.trailerIn src)) :
    SameData w s ↔ s.trailerIn src = s.rightTrailer := by
  rw [hWrites.eq, hFormat]
  unfold SameData InflStream.rightTrailer formatTrailer
  cases s.format with
  | defl => exact iff_of_true trivial rfl
  | zlib =>
      exact ⟨fun hEq => congrArg be32 hEq, be32_inj⟩
  | gzip =>
      simp only
      rw [← ofNat_eq_iff]
      constructor
      · rintro ⟨hCrc32, hSize⟩
        rw [hCrc32, hSize]
      · intro hEq
        rcases List.append_inj hEq rfl with ⟨hCrc32, hSize⟩
        exact ⟨le32_inj hCrc32, le32_inj hSize⟩

/- With the right length, the checksum decides. -/
theorem checksum_eq_iff
    (hFormat : s.format ≠ .defl)
    (hSize : ¬ OnlySizeWrong src s) :
    src.window s.totalIn 4 = s.checksum ↔
      s.trailerIn src = s.rightTrailer := by
  unfold InflStream.checksum InflStream.rightTrailer
    formatTrailer
  cases hKind : s.format with
  | defl => exact absurd hKind hFormat
  | zlib =>
      unfold InflStream.trailerIn
      rw [hKind]
      exact Iff.rfl
  | gzip =>
      rw [trailerIn_gzip hKind]
      constructor
      · intro hCrc32
        have hRest :
            src.window (s.totalIn + 4) 4 =
              le32 (UInt32.ofNat s.produced) := by
          by_contra hNe
          exact hSize ⟨hKind, hCrc32, hNe⟩
        rw [hCrc32, hRest]
      · exact fun hEq =>
          (List.append_inj hEq (by simp)).1

/-
  A trailer with the right checksum and a wrong length is
  accepted.
-/
theorem OnlySizeWrong.not_agreement
    (hWrong : OnlySizeWrong src s)
    (hStart : TrailerStart src s)
    (hOffers : OffersTrailer s calls) :
    ¬ TrailerAgreement src calls s := by
  rcases hWrong with ⟨hGzip, hCrc32, hSize⟩
  have hFormat : s.format ≠ .defl := by
    rw [hGzip]
    exact fun h => nomatch h
  have hChecksum : src.window s.totalIn 4 = s.checksum := by
    unfold InflStream.checksum
    rw [hGzip]
    exact hCrc32
  have hAccepted :=
    (readTrailer_result hFormat hStart hOffers).2 hChecksum
  intro hAgree
  refine (hAgree.wrong ?_).not_accepted hAccepted
  rw [trailerIn_gzip hGzip]
  unfold InflStream.rightTrailer formatTrailer
  rw [hGzip]
  exact fun hEq => hSize (List.append_inj hEq (by simp)).2

/-
  Writer and reader agree exactly if no GZIP trailer has the
  reader's checksum and another length.
-/
theorem trailer_agreement_iff
    (hFormat : s.format ≠ .defl)
    (hStart : TrailerStart src s)
    (hOffers : OffersTrailer s calls) :
    TrailerAgreement src calls s ↔
      ¬ OnlySizeWrong src s := by
  have hResult := readTrailer_result hFormat hStart hOffers
  constructor
  · exact fun hAgree hWrong =>
      hWrong.not_agreement hStart hOffers hAgree
  · intro hSize
    have hIff := checksum_eq_iff hFormat hSize
    refine ⟨fun w hKind hWrites => ?_, fun hNe => ?_⟩
    · rw [sameData_iff hKind hWrites, ← hIff]
      constructor
      · intro hAccepted
        by_contra hDiffer
        exact (hResult.1 hDiffer).not_accepted hAccepted
      · exact hResult.2
    · exact hResult.1 fun hSame => hNe (hIff.mp hSame)

end Agreement

------------------------------------------------------------
-- A Wrong Length
------------------------------------------------------------

/- A GZIP reader behind the final block, one byte produced. -/
def sizeReader : InflStream :=
  { InflStream.zeroed .gzip with
    totalOut := 1
    asv :=
      { (InflStream.zeroed .gzip).asv with
        inflStat := 0x05 } }

/- A trailer for no data, the checksum being zero. -/
def sizeSrc : ByteMem := fun _ => 0

/- The whole trailer is offered. -/
def sizeCall : InflateCall where
  availIn := 8
  availOut := 16
  flush := .noFlush
  env := ⟨fun _ _ => endResp⟩

theorem sizeReader_start :
    TrailerStart sizeSrc sizeReader :=
  ⟨by decide, rfl, rfl, Nat.le_refl _, rfl⟩

theorem sizeCall_offers :
    OffersTrailer sizeReader [sizeCall] := by
  refine ⟨fun call hMem => ?_, by decide⟩
  rw [List.mem_singleton.mp hMem]
  decide

theorem wrong_size_accepted :
    ¬ ∀ (src : ByteMem) (calls : List InflateCall)
        (s : InflStream),
      s.format ≠ .defl → TrailerStart src s →
        OffersTrailer s calls →
          TrailerAgreement src calls s := by
  intro hAll
  have hWrong : OnlySizeWrong sizeSrc sizeReader :=
    ⟨rfl, by decide, by decide⟩
  exact hWrong.not_agreement sizeReader_start
    sizeCall_offers
    (hAll sizeSrc [sizeCall] sizeReader (by decide)
      sizeReader_start sizeCall_offers)

/- The reader behind one letter, with its checksum. -/
def letterReader : InflStream :=
  { sizeReader with crc32 := 0xe8b7be43 }

def letterTrailer : ByteMem := fun i =>
  [0x43, 0xbe, 0xb7, 0xe8, 0x01, 0x00, 0x00, 0x00].getD i 0

/- The trailer in two pieces. -/
def letterPieces : List InflateCall :=
  [{ sizeCall with availIn := 3 },
    { sizeCall with availIn := 5 }]

theorem trailer_agreement_letter :
    TrailerAgreement letterTrailer letterPieces
      letterReader := by
  have hStart : TrailerStart letterTrailer letterReader :=
    ⟨by decide, rfl, rfl, Nat.le_refl _, rfl⟩
  have hOffers :
      OffersTrailer letterReader letterPieces := by
    refine ⟨fun call hMem => ?_, by decide⟩
    rcases List.mem_pair.mp hMem with rfl | rfl <;> decide
  refine (trailer_agreement_iff (by decide) hStart
    hOffers).mpr ?_
  exact fun hWrong => hWrong.2.2 (by decide)

end Zedc
