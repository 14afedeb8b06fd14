import GenWqe.Inflate.Calls

/-
  What the checksum in the trailer decides about a stream.

  Key definitions include:
    * `InBlocks`, `AtTrailer` and `BehindFinal`
    * `TrailerRejected`
    * `VerdictFinal`

  Main results:
    * `inflateTrailer_at` and `inflateTrailer_behind`
    * `verdictInv_step`
    * `verdict_final_of_calls`
    * `mismatch_forgotten`
-/

------------------------------------------------------------
-- Checksums
------------------------------------------------------------

namespace Zedc

/- The checksum the card reported, as the trailer has it. -/
def checksumBytes
    (format : Format) (resp : InflResp) : List UInt8 :=
  match format with
  | .defl => []
  | .zlib => be32 resp.outAdler32
  | .gzip => le32 resp.outCrc32

/- All bytes of the trailer have been read. -/
def TrailerComplete (s : InflStream) : Prop :=
  s.postfx.len ≠ 0 ∧ s.postfx.idx = s.postfx.len

/- The trailer was read, and its checksum is another one. -/
def TrailerRejected (s : InflStream) : Prop :=
  TrailerComplete s ∧ ¬ TrailerMatches s

theorem le32_inj {x y : UInt32} (h : le32 x = le32 y) :
    x = y := by
  have hx := x.toNat_lt
  have hy := y.toNat_lt
  unfold le32 at h
  simp only [List.cons.injEq, ← UInt8.toNat_inj,
    UInt32.toNat_toUInt8, UInt32.toNat_shiftRight,
    UInt32.reduceToNat, Nat.shiftRight_eq_div_pow, and_true,
    Nat.reduceMod, Nat.reducePow] at h
  apply UInt32.toNat_inj.mp
  omega

theorem be32_inj {x y : UInt32} (h : be32 x = be32 y) :
    x = y := by
  unfold be32 at h
  exact le32_inj (List.reverse_injective h)

------------------------------------------------------------
-- The Two Phases of a Stream
------------------------------------------------------------

/- The final block has not been seen, nor any trailer. -/
structure InBlocks (format : Format) (s : InflStream) :
    Prop where
  format : s.format = format
  data : InData s
  mark : HeaderMark s
  len : s.postfx.len = 0
  idx : s.postfx.idx = 0

/-
  The final block was seen, and the trailer, which starts at
  `start`, is read as far as `postfx` tells.
-/
structure AtTrailer
    (src : ByteMem)
    (format : Format)
    (start : Nat)
    (s : InflStream) : Prop where
  format : s.format = format
  final : finalEob s.asv.inflStat = true
  ok : TrailerOk s
  totalIn : s.totalIn = start + s.postfx.idx
  bytes :
    s.postfx.bytes.window 0 s.postfx.idx =
      src.window start s.postfx.idx

/- The final block was seen in the response `resp`. -/
structure BehindFinal
    (src : ByteMem)
    (format : Format)
    (resp : InflResp)
    (start : Nat)
    (s : InflStream) : Prop
    extends AtTrailer src format start s where
  crc32 : s.crc32 = resp.outCrc32
  adler32 : s.adler32 = resp.outAdler32

section Trailer

variable {src : ByteMem} {format : Format}
variable {resp : InflResp} {start : Nat}
variable {s s' : InflStream}

/- The verdict is about the stream and the response alone. -/
theorem BehindFinal.matches_iff
    (hBehind : BehindFinal src format resp start s)
    (hFormat : format ≠ .defl)
    (hRead : 4 ≤ s.postfx.idx) :
    TrailerMatches s ↔
      src.window start 4 = checksumBytes format resp := by
  have hBytes :
      s.postfx.bytes.window 0 4 = src.window start 4 := by
    have hTake :=
      congrArg (List.take 4) hBehind.bytes
    rw [ByteMem.take_window, ByteMem.take_window,
      Nat.min_eq_left hRead] at hTake
    exact hTake
  unfold TrailerMatches checksumBytes
  rw [hBehind.format, ← hBytes]
  cases format with
  | defl => exact absurd rfl hFormat
  | zlib =>
      simp only
      rw [hBehind.adler32, ← be32_readBe32]
      exact ⟨fun hEq => congrArg be32 hEq, be32_inj⟩
  | gzip =>
      simp only
      rw [hBehind.crc32, ← le32_readLe32]
      exact ⟨fun hEq => congrArg le32 hEq, le32_inj⟩

/- The start of a trailer, behind a final response. -/
theorem AtTrailer.begin
    (hLen : s'.postfx.len = 0)
    (hIdx : s'.postfx.idx = 0)
    (hFormat : s'.format = format)
    (hFinal : finalEob s'.asv.inflStat = true) :
    AtTrailer src format s'.totalIn s' := by
  refine ⟨hFormat, hFinal, ⟨?_, Or.inl hLen⟩, ?_, ?_⟩
  · rw [hIdx]
    exact Nat.zero_le _
  · rw [hIdx, Nat.add_zero]
  · rw [hIdx]
    rfl

theorem InBlocks.behindFinal
    (hBlocks : InBlocks format s)
    (hFinal : finalEob s'.asv.inflStat = true)
    (hCrc32 : s'.crc32 = resp.outCrc32)
    (hAdler32 : s'.adler32 = resp.outAdler32)
    (hFormat : s'.format = s.format)
    (hPostfx : s'.postfx = s.postfx) :
    BehindFinal src format resp s'.totalIn s' := by
  refine ⟨AtTrailer.begin ?_ ?_
    (hFormat.trans hBlocks.format) hFinal, hCrc32, hAdler32⟩
  · rw [hPostfx, hBlocks.len]
  · rw [hPostfx, hBlocks.idx]

/- Whatever leaves the trailer alone. -/
theorem AtTrailer.congr
    (hAt : AtTrailer src format start s)
    (hFormat : s'.format = s.format)
    (hAsv : s'.asv = s.asv)
    (hPostfx : s'.postfx = s.postfx)
    (hTotalIn : s'.totalIn = s.totalIn) :
    AtTrailer src format start s' := by
  refine ⟨hFormat.trans hAt.format, ?_, ⟨?_, ?_⟩, ?_, ?_⟩
  · rw [hAsv]
    exact hAt.final
  · rw [hPostfx]
    exact hAt.ok.idx
  · rw [hPostfx, hFormat]
    exact hAt.ok.len
  · rw [hTotalIn, hPostfx]
    exact hAt.totalIn
  · rw [hPostfx]
    exact hAt.bytes

/- Whatever leaves trailer and checksums alone. -/
theorem BehindFinal.congr
    (hBehind : BehindFinal src format resp start s)
    (hFormat : s'.format = s.format)
    (hAsv : s'.asv = s.asv)
    (hPostfx : s'.postfx = s.postfx)
    (hTotalIn : s'.totalIn = s.totalIn)
    (hCrc32 : s'.crc32 = s.crc32)
    (hAdler32 : s'.adler32 = s.adler32) :
    BehindFinal src format resp start s' :=
  ⟨hBehind.toAtTrailer.congr hFormat hAsv hPostfx hTotalIn,
    hCrc32.trans hBehind.crc32,
    hAdler32.trans hBehind.adler32⟩

/- The bytes a call has taken are those of the trailer. -/
theorem AtTrailer.removed
    {k : Nat}
    (hAt : AtTrailer src format start s)
    (hFed : FedFrom src s)
    (hTaken : TrailerRemoved s s' k) :
    AtTrailer src format start s' := by
  have hStrm := hTaken.strm
  have hTotalIn : s'.totalIn = s.totalIn + k :=
    (congrArg InflStream.totalIn hStrm :)
  have hSame : s'.format = s.format :=
    (congrArg InflStream.format hStrm :)
  refine ⟨hSame.trans hAt.format, ?_, ⟨hTaken.ok, ?_⟩, ?_, ?_⟩
  · rw [hStrm]
    exact hAt.final
  · rw [hSame]
    exact Or.inr hTaken.len
  · rw [hTotalIn, hTaken.idx, hAt.totalIn, Nat.add_assoc]
  · rw [hTaken.bytes, hFed.take hTaken.le, hAt.bytes,
      hTaken.idx, ByteMem.window_add, hAt.totalIn]

/- At the end of the stream the trailer is read. -/
theorem inflateTrailer_at
    {rc : Rc}
    (hAt : AtTrailer src format start s)
    (hFed : FedFrom src s)
    (hTrailer : inflateTrailer s = (rc, s')) :
    AtTrailer src format start s' ∧
      s'.prefx = s.prefx ∧
      s.postfx.idx ≤ s'.postfx.idx ∧
      (rc = .streamEnd →
        s'.postfx.idx = trailerLen format) := by
  unfold inflateTrailer at hTrailer
  by_cases hDefl : s.format = .defl
  · have hRemove :
        inflateFormatRemTrailer s = (.removed, s) :=
      if_pos hDefl
    have hNone : s.postfx.idx = trailerLen format := by
      have hLe := hAt.ok.idx
      have hLen := hAt.ok.len
      rw [hDefl] at hLen
      rw [← hAt.format, hDefl]
      simp only [trailerLen] at hLen ⊢
      omega
    rw [hRemove] at hTrailer
    simp only at hTrailer
    split at hTrailer <;> cases hTrailer <;>
      exact ⟨hAt, rfl, Nat.le_refl _, fun _ => hNone⟩
  · cases hRemove : inflateFormatRemTrailer s with
    | mk result s₁ =>
        rcases inflateFormatRemTrailer_spec hDefl hAt.ok
          hRemove with ⟨⟨k, hTaken⟩, hRemoved, _⟩
        have hAt₁ := hAt.removed hFed hTaken
        have hIdx := hTaken.idx
        have hPrefx : s₁.prefx = s.prefx :=
          (congrArg InflStream.prefx hTaken.strm :)
        rw [hRemove] at hTrailer
        rcases result with _ | _ | code
        · have hAll := (hRemoved rfl).1
          rw [hAt.format] at hAll
          simp only at hTrailer
          split at hTrailer <;> cases hTrailer <;>
            exact ⟨hAt₁, hPrefx, by omega, fun _ => hAll⟩
        · cases hTrailer
          exact ⟨hAt₁, hPrefx, by omega,
            fun hRc => by cases hRc⟩
        · cases hTrailer
          exact ⟨hAt₁, hPrefx, by omega,
            fun hRc => by cases hRc⟩

/- What looking at the trailer tells about the stream. -/
structure TrailerVerdict
    (src : ByteMem)
    (format : Format)
    (resp : InflResp)
    (start : Nat)
    (s : InflStream)
    (rc : Rc)
    (s' : InflStream) : Prop where
  behind : BehindFinal src format resp start s'
  idx : s.postfx.idx ≤ s'.postfx.idx
  ended :
    rc = .streamEnd →
      TrailerComplete s' ∧
        (TrailerComplete s ∨
          src.window start 4 = checksumBytes format resp)
  rejected :
    rc = .dataError →
      4 ≤ s'.postfx.idx ∧
        src.window start 4 ≠ checksumBytes format resp

theorem inflateTrailer_behind
    {rc : Rc}
    (hFormat : format ≠ .defl)
    (hBehind : BehindFinal src format resp start s)
    (hFed : FedFrom src s)
    (hTrailer : inflateTrailer s = (rc, s')) :
    TrailerVerdict src format resp start s rc s' := by
  have hDefl : s.format ≠ .defl := by
    rw [hBehind.format]
    exact hFormat
  have hFour := trailerLen_ge hDefl
  cases hRemove : inflateFormatRemTrailer s with
  | mk result s₁ =>
      rcases inflateFormatRemTrailer_spec hDefl hBehind.ok
        hRemove with ⟨⟨k, hTaken⟩, hRemoved, hFailed⟩
      have hStrm := hTaken.strm
      have hIdx := hTaken.idx
      have hCrc32 : s₁.crc32 = s.crc32 :=
        (congrArg InflStream.crc32 hStrm :)
      have hAdler32 : s₁.adler32 = s.adler32 :=
        (congrArg InflStream.adler32 hStrm :)
      have hBehind₁ :
          BehindFinal src format resp start s₁ :=
        ⟨hBehind.toAtTrailer.removed hFed hTaken,
          hCrc32.trans hBehind.crc32,
          hAdler32.trans hBehind.adler32⟩
      have hRead :
          4 ≤ s₁.postfx.idx →
            (TrailerMatches s₁ ↔
              src.window start 4 =
                checksumBytes format resp) :=
        hBehind₁.matches_iff hFormat
      have hOld : s.postfx.idx = trailerLen s.format →
          TrailerComplete s := by
        intro hAll
        have hLe := hBehind.ok.idx
        have hLen := hBehind.ok.len
        exact ⟨by omega, by omega⟩
      unfold inflateTrailer at hTrailer
      rw [hRemove] at hTrailer
      rcases result with _ | _ | code
      · simp only at hTrailer
        rcases hRemoved rfl with ⟨hAll, hWhy⟩
        have hEnds :
            TrailerComplete s₁ ∧
              (TrailerComplete s ∨
                src.window start 4 =
                  checksumBytes format resp) := by
          refine ⟨⟨?_, ?_⟩, ?_⟩
          · rw [hTaken.len]
            omega
          · rw [hTaken.len, hAll]
          · rcases hWhy with hBefore | hMatch
            · exact Or.inl (hOld hBefore)
            · exact Or.inr
                ((hRead (by omega)).mp hMatch)
        split at hTrailer
        · cases hTrailer
          exact ⟨hBehind₁, by omega, fun _ => hEnds,
            fun hRc => nomatch hRc⟩
        · cases hTrailer
          exact ⟨hBehind₁, by omega,
            (fun hRc => nomatch hRc),
            fun hRc => nomatch hRc⟩
      · cases hTrailer
        exact ⟨hBehind₁, by omega, (fun hRc => nomatch hRc),
          fun hRc => nomatch hRc⟩
      · cases hTrailer
        rcases hFailed code rfl with ⟨hDiffer, hIdxFour⟩
        exact ⟨hBehind₁, by omega, (fun hRc => nomatch hRc),
          fun _ => ⟨hIdxFour, fun hSame =>
            hDiffer ((hRead hIdxFour).mpr hSame)⟩⟩

end Trailer

------------------------------------------------------------
-- The Invariant of a Run
------------------------------------------------------------

/- Some call of the trace returned `rc`. -/
def Returned (rc : Rc) (trace : List InflateEvent) : Prop :=
  ∃ event ∈ trace, event.rc = rc

theorem returned_append
    {rc : Rc}
    {trace : List InflateEvent}
    {event : InflateEvent} :
    Returned rc (trace ++ [event]) ↔
      Returned rc trace ∨ event.rc = rc := by
  simp [Returned, or_and_right, exists_or]

/-
  Before the final block there is no verdict; behind it, one
  that was given is that of the bytes of the trailer.
-/
inductive VerdictInv
    (src : ByteMem) (format : Format) :
    List InflateEvent → InflStream → Prop
  | blocks
      {trace : List InflateEvent} {s : InflStream} :
      InBlocks format s →
      ¬ Returned .streamEnd trace →
      ¬ Returned .dataError trace →
      VerdictInv src format trace s
  | behind
      {trace : List InflateEvent} {s : InflStream}
      {ex : InflExchange} {start : Nat} :
      BehindFinal src format ex.resp start s →
      lastExchange trace = some ex →
      (Returned .dataError trace →
        4 ≤ s.postfx.idx ∧
          src.window start 4 ≠
            checksumBytes format ex.resp) →
      (Returned .streamEnd trace →
        TrailerComplete s ∧
          src.window start 4 =
            checksumBytes format ex.resp) →
      VerdictInv src format trace s

/- A stream in its blocks that only the data area changes. -/
theorem InBlocks.congr
    {format : Format}
    {s s' : InflStream}
    (hBlocks : InBlocks format s)
    (hFormat : s'.format = s.format)
    (hPostfx : s'.postfx = s.postfx)
    (hPrefx : s'.prefx = s.prefx)
    (hData : InData s') :
    InBlocks format s' := by
  refine ⟨hFormat.trans hBlocks.format, hData, ?_, ?_, ?_⟩
  · exact hBlocks.mark.congr hFormat hPrefx
  · rw [hPostfx]
    exact hBlocks.len
  · rw [hPostfx]
    exact hBlocks.idx

theorem InBlocks.of_idle
    {format : Format}
    {s s' : InflStream}
    {k : Nat}
    (hBlocks : InBlocks format s)
    (hIdle : Idle s s' k) :
    InBlocks format s' := by
  have hMark := hIdle.mark
  rw [hIdle.strm] at hMark ⊢
  exact ⟨hBlocks.format,
    ⟨hBlocks.data.eobSeen, hBlocks.data.inflStat⟩, hMark,
    hBlocks.len, hBlocks.idx⟩

/- What is left of the verdict on a finished DDCB. -/
inductive Delivered
    (src : ByteMem)
    (format : Format)
    (resp : InflResp) :
    Rc → InflStream → Prop
  | blocks
      {rc : Rc} {s : InflStream} :
      InBlocks format s →
      rc = .ok ∨ rc = .streamError →
      Delivered src format resp rc s
  | behind
      {rc : Rc} {s : InflStream} {start : Nat} :
      BehindFinal src format resp start s →
      (rc = .streamEnd →
        TrailerComplete s ∧
          src.window start 4 = checksumBytes format resp) →
      (rc = .dataError →
        4 ≤ s.postfx.idx ∧
          src.window start 4 ≠
            checksumBytes format resp) →
      Delivered src format resp rc s

/-
  The results of a DDCB: as long as the final block is not
  seen the stream stays in its blocks, and with it the trailer
  begins.
-/
theorem inflateCheck_delivered
    {src : ByteMem}
    {format : Format}
    {s s₂ : InflStream}
    {ex : InflExchange}
    {rc : Rc}
    (hFormat : format ≠ .defl)
    (hBlocks : InBlocks format s)
    (hFed : FedFrom src s)
    (hUpdate :
      postScratchUpd (getInflateAsv ex.resp s) =
        some (rc, s₂)) :
    Delivered src format ex.resp (inflateCheck ex rc s₂).1
      (inflateCheck ex rc s₂).2 := by
  rcases postScratchUpd_changes hUpdate with ⟨hChanged, _⟩
  have hStrm := hChanged.strm
  have hFormat₂ : s₂.format = s.format :=
    (congrArg InflStream.format hStrm :)
  have hPostfx₂ : s₂.postfx = s.postfx :=
    (congrArg InflStream.postfx hStrm :)
  have hPrefx₂ : s₂.prefx = s.prefx :=
    (congrArg InflStream.prefx hStrm :)
  have hNextIn₂ : s₂.nextIn = s.nextIn :=
    (congrArg InflStream.nextIn hStrm :)
  have hTotalIn₂ : s₂.totalIn = s.totalIn :=
    (congrArg InflStream.totalIn hStrm :)
  have hCrc32₂ : s₂.crc32 = ex.resp.outCrc32 :=
    (congrArg InflStream.crc32 hStrm :)
  have hAdler32₂ : s₂.adler32 = ex.resp.outAdler32 :=
    (congrArg InflStream.adler32 hStrm :)
  have hStat₂ : s₂.asv.inflStat = ex.resp.inflStat :=
    hChanged.inflStat
  have hFed₂ : FedFrom src s₂ := by
    unfold FedFrom at hFed ⊢
    rw [hNextIn₂, hTotalIn₂]
    exact hFed
  cases hFinal : finalEob ex.resp.inflStat with
  | false =>
      have hData₂ : InData s₂ := by
        refine ⟨?_, by rw [hStat₂, hFinal]⟩
        rcases hChanged.eobSeen with hSame | hAbs
        · exact hSame.trans hBlocks.data.eobSeen
        · exact absurd (hAbs.symm.trans hFinal) (by decide)
      have hBlocks₂ : InBlocks format s₂ :=
        hBlocks.congr hFormat₂ hPostfx₂ hPrefx₂ hData₂
      cases hCheck : inflateCheck ex rc s₂ with
      | mk rc' s' =>
          rcases inflateCheck_cases hCheck with
            ⟨hRc, hOut⟩ | ⟨hFinish, _⟩
          · refine .blocks ?_ (Or.inr hRc)
            simp only
            rw [hOut]
            exact hBlocks₂.congr rfl rfl rfl
              ⟨hData₂.1, hData₂.2⟩
          · rw [inflateFinish_more ex hData₂] at hFinish
            cases hFinish
            exact .blocks
              (hBlocks₂.congr rfl rfl rfl
                ⟨hData₂.1, hData₂.2⟩)
              (Or.inl rfl)
  | true =>
      have hFinal₂ : finalEob s₂.asv.inflStat = true := by
        rw [hStat₂, hFinal]
      cases hCheck : inflateCheck ex rc s₂ with
      | mk rc' s' =>
          rcases inflateCheck_cases hCheck with
            ⟨hRc, hOut⟩ | ⟨hFinish, _⟩
          · have hBehind :
                BehindFinal src format ex.resp s'.totalIn
                  s' := by
              rw [hOut]
              exact hBlocks.behindFinal hFinal₂ hCrc32₂
                hAdler32₂ hFormat₂ hPostfx₂
            subst hRc
            exact .behind hBehind
              (fun hRc => nomatch hRc)
              (fun hRc => nomatch hRc)
          · -- the trailer starts behind the input used
            rw [inflateFinish_final ex hFinal₂] at hFinish
            have hStart :
                BehindFinal src format ex.resp
                  (s₂.takenFinal ex).totalIn
                  (s₂.takenFinal ex) := by
              refine hBlocks.behindFinal ?_ ?_ ?_ ?_ ?_
              · exact hFinal₂
              · exact hCrc32₂
              · exact hAdler32₂
              · exact hFormat₂
              · exact hPostfx₂
            have hVerdict :=
              inflateTrailer_behind hFormat hStart
                (hFed₂.advance s₂.inpDataOffs) hFinish
            have hLen : (s₂.takenFinal ex).postfx.len = 0 :=
              (congrArg Postfx.len hPostfx₂).trans
                hBlocks.len
            refine .behind hVerdict.behind (fun hRc => ?_)
              hVerdict.rejected
            rcases hVerdict.ended hRc with
              ⟨hAll, hBefore | hSame⟩
            · exact absurd hLen hBefore.1
            · exact ⟨hAll, hSame⟩

------------------------------------------------------------
-- One Call
------------------------------------------------------------

section Step

variable {src : ByteMem} {format : Format}
variable {trace : List InflateEvent} {s s' : InflStream}
variable {event : InflateEvent}

theorem InBlocks.offer
    (hBlocks : InBlocks format s)
    (src : ByteMem)
    (call : InflateCall) :
    InBlocks format (s.offer src call) :=
  hBlocks.congr rfl rfl rfl
    ⟨hBlocks.data.eobSeen, hBlocks.data.inflStat⟩

theorem InBlocks.submit
    (hBlocks : InBlocks format s)
    (pages : Bool → ByteMem) :
    InBlocks format ((setInflateAsiv s).withPages pages) :=
  hBlocks.congr rfl rfl rfl
    ⟨hBlocks.data.eobSeen, hBlocks.data.inflStat⟩

theorem InBlocks.of_tried
    (hBlocks : InBlocks format s)
    (hTried : Tried s s') :
    InBlocks format s' := by
  rw [hTried.strm]
  exact hBlocks.congr rfl rfl rfl
    ⟨hBlocks.data.eobSeen, hBlocks.data.inflStat⟩

/- A call in the blocks either stays there or delivers. -/
theorem InBlocks.step
    (hFormat : format ≠ .defl)
    (hBlocks : InBlocks format s)
    (hStep : inflateStep src s event s') :
    (InBlocks format s' ∧ event.exchange = none ∧
        event.rc ≠ .streamEnd ∧ event.rc ≠ .dataError) ∨
      ∃ ex,
        event.exchange = some ex ∧
          Delivered src format ex.resp event.rc s' := by
  rcases event with ⟨call, rc, exchange⟩
  have hOffered := hBlocks.offer src call
  have hFed := fedFrom_offer src call s
  cases zedcInflate_called (fun _ => hOffered.mark) hStep with
  | prepared hPrepared =>
      cases hPrepared with
      | refused hStrm hRc =>
          refine Or.inl ⟨?_, rfl, ?_⟩
          · rw [hStrm]
            exact hOffered.congr rfl rfl rfl
              ⟨hOffered.data.eobSeen,
                hOffered.data.inflStat⟩
          · rcases hRc with rfl | rfl <;> simp
      | idle hIdle hData hRc =>
          refine Or.inl ⟨hOffered.of_idle hIdle, rfl, ?_⟩
          rcases hRc with rfl | rfl | rfl <;> simp
      | trailer hFlushed hNot hTrailer =>
          exact absurd hOffered.data hNot
  | submitted hIdle hData hSmall hSome hGone hSubmitted =>
      have hBlocks₁ := hOffered.of_idle hIdle
      cases hSubmitted with
      | tried hTried hRc =>
          refine Or.inl ⟨hBlocks₁.of_tried hTried, rfl, ?_⟩
          rcases hRc with rfl | rfl <;> simp
      | done hUpdate hReq =>
          refine Or.inr ⟨_, rfl, ?_⟩
          refine inflateCheck_delivered hFormat
            (hBlocks₁.submit _) ?_ hUpdate
          exact (hFed.of_idle hIdle :)

/- The stream whose trailer a call looks at. -/
def InflStream.atTrailer
    (n : Nat) (s : InflStream) : InflStream :=
  { s.giveOut n with eobSeen := true }

/- Behind the final block, a call looks at the trailer. -/
theorem finalCall_cases
    (hFinal : finalEob s.asv.inflStat = true)
    (hStep : inflateStep src s event s') :
    event.exchange = none ∧
    ((s' =
        { s.offer src event.call with
          inpDataOffs := s'.inpDataOffs } ∧
        (event.rc = .memError ∨ event.rc = .streamError)) ∨
      ∃ n,
        inflateTrailer
            ((s.offer src event.call).atTrailer n) =
          (event.rc, s')) := by
  rcases event with ⟨call, rc, exchange⟩
  have hNot : ¬ InData (s.offer src call) := by
    intro hData
    have hMore : finalEob s.asv.inflStat = false :=
      hData.inflStat
    rw [hFinal] at hMore
    cases hMore
  cases zedcInflate_called (fun hData => absurd hData hNot)
      hStep with
  | prepared hPrepared =>
      cases hPrepared with
      | refused hStrm hRc => exact ⟨rfl, Or.inl ⟨hStrm, hRc⟩⟩
      | idle hIdle hData hRc => exact absurd hData hNot
      | trailer hFlushed hNot hTrailer =>
          rename_i n
          have hSeen :
              inflateEobSeen
                  ((s.offer src call).giveOut n) =
                (s.offer src call).atTrailer n :=
            if_pos hFinal
          rw [hSeen] at hTrailer
          exact ⟨rfl, Or.inr ⟨n, hTrailer⟩⟩
  | submitted hIdle hData hSmall hSome hGone hSubmitted =>
      exact absurd hData hNot

theorem BehindFinal.step
    {resp : InflResp}
    {start : Nat}
    (hFormat : format ≠ .defl)
    (hBehind : BehindFinal src format resp start s)
    (hStep : inflateStep src s event s') :
    event.exchange = none ∧
    TrailerVerdict src format resp start s event.rc s' := by
  rcases finalCall_cases hBehind.final hStep with
    ⟨hNone, ⟨hStrm, hRc⟩ | ⟨n, hTrailer⟩⟩
  · refine ⟨hNone, ?_, ?_, ?_, ?_⟩
    · rw [hStrm]
      exact hBehind.congr rfl rfl rfl rfl rfl rfl
    · rw [hStrm]
      exact Nat.le_refl _
    · rcases hRc with hRc | hRc <;> rw [hRc] <;>
        exact fun hEnd => nomatch hEnd
    · rcases hRc with hRc | hRc <;> rw [hRc] <;>
        exact fun hError => nomatch hError
  · have hBehind₁ :
        BehindFinal src format resp start
          ((s.offer src event.call).atTrailer n) :=
      hBehind.congr rfl rfl rfl rfl rfl rfl
    have hVerdict :=
      inflateTrailer_behind hFormat hBehind₁
        (fedFrom_offer src event.call s) hTrailer
    exact ⟨hNone, hVerdict.behind, hVerdict.idx,
      hVerdict.ended, hVerdict.rejected⟩

/- The position in the trailer, after a call. -/
theorem AtTrailer.step
    {start : Nat}
    (hAt : AtTrailer src format start s)
    (hStep : inflateStep src s event s') :
    event.exchange = none ∧
    AtTrailer src format start s' ∧
    s'.prefx = s.prefx ∧
    s.postfx.idx ≤ s'.postfx.idx ∧
    (event.rc = .streamEnd →
      s'.postfx.idx = trailerLen format) := by
  rcases finalCall_cases hAt.final hStep with
    ⟨hNone, ⟨hStrm, hRc⟩ | ⟨n, hTrailer⟩⟩
  · refine ⟨hNone, ?_, ?_, ?_, ?_⟩
    · rw [hStrm]
      exact hAt.congr rfl rfl rfl rfl
    · rw [hStrm]
      rfl
    · rw [hStrm]
      exact Nat.le_refl _
    · rcases hRc with hRc | hRc <;> rw [hRc] <;>
        exact fun hEnd => nomatch hEnd
  · have hAt₁ :
        AtTrailer src format start
          ((s.offer src event.call).atTrailer n) :=
      hAt.congr rfl rfl rfl rfl
    rcases inflateTrailer_at hAt₁
      (fedFrom_offer src event.call s) hTrailer with
      ⟨hAt', hPrefx, hIdx, hEnd⟩
    exact ⟨hNone, hAt', hPrefx, hIdx, hEnd⟩

/- What holds of trace and stream survives a call. -/
theorem verdictInv_step
    (hFormat : format ≠ .defl)
    (hInv : VerdictInv src format trace s)
    (hFresh : ¬ TrailerRejected s)
    (hStep : inflateStep src s event s') :
    VerdictInv src format (trace ++ [event]) s' := by
  cases hInv with
  | blocks hBlocks hNoEnd hNoError =>
      rcases hBlocks.step hFormat hStep with
        ⟨hBlocks', _, hEnd, hError⟩ | ⟨ex, hEx, hDelivered⟩
      · exact .blocks hBlocks'
          (by simp [returned_append, hNoEnd, hEnd])
          (by simp [returned_append, hNoError, hError])
      · have hLast :
            lastExchange (trace ++ [event]) = some ex := by
          rw [lastExchange_append, hEx]
          rfl
        cases hDelivered with
        | blocks hBlocks' hRc =>
            refine .blocks hBlocks' ?_ ?_
            · rcases hRc with hRc | hRc <;>
                simp [returned_append, hNoEnd, hRc]
            · rcases hRc with hRc | hRc <;>
                simp [returned_append, hNoError, hRc]
        | behind hBehind hEnd hError =>
            refine .behind hBehind hLast (fun hSome => ?_)
              (fun hSome => ?_)
            · exact hError ((returned_append.mp
                hSome).resolve_left hNoError)
            · exact hEnd ((returned_append.mp
                hSome).resolve_left hNoEnd)
  | behind hBehind hLast hError hEnd =>
      rename_i ex start
      rcases hBehind.step hFormat hStep with
        ⟨hNone, hVerdict⟩
      have hLast' :
          lastExchange (trace ++ [event]) = some ex := by
        rw [lastExchange_append, hNone, hLast]
        rfl
      have hIdx := hVerdict.idx
      refine .behind hVerdict.behind hLast' (fun hSome => ?_)
        (fun hSome => ?_)
      · rcases returned_append.mp hSome with hBefore | hNow
        · rcases hError hBefore with ⟨hRead, hDiffer⟩
          exact ⟨hRead.trans hIdx, hDiffer⟩
        · exact hVerdict.rejected hNow
      · rcases returned_append.mp hSome with hBefore | hNow
        · rcases hEnd hBefore with ⟨hAll, hSame⟩
          have hOk := hVerdict.behind.ok
          have hLen := hOk.idx
          have hWhole := hOk.len
          have hOld := hBehind.ok.len
          rw [hVerdict.behind.format] at hWhole
          rw [hBehind.format] at hOld
          rcases hAll with ⟨hSomeLen, hAll⟩
          exact ⟨⟨by omega, by omega⟩, hSame⟩
        · rcases hVerdict.ended hNow with
            ⟨hAll, hBefore | hSame⟩
          · -- the trailer was complete before this call
            have hMatch : TrailerMatches s :=
              Decidable.not_not.mp
                (fun hDiffer => hFresh ⟨hBefore, hDiffer⟩)
            have hFour :=
              trailerLen_ge hFormat
            have hOld := hBehind.ok.len
            rw [hBehind.format] at hOld
            have hRead : 4 ≤ s.postfx.idx := by
              rcases hBefore with ⟨hSomeLen, hIs⟩
              omega
            exact ⟨hAll,
              (hBehind.matches_iff hFormat hRead).mp hMatch⟩
          · exact ⟨hAll, hSame⟩

/- With the trailer complete, the end is all there is. -/
theorem inflateTrailer_complete
    (hAll : TrailerComplete s)
    (hNone : s.dict.obytesInDict = 0) :
    inflateTrailer s = (.streamEnd, s) := by
  have hRemove :
      inflateFormatRemTrailer s = (.removed, s) := by
    have hPrepare : remTrailerPrepare s = s :=
      if_neg hAll.1
    have hLoop := remTrailerLoop_done s.nextIn hAll.2.ge
    unfold inflateFormatRemTrailer
    simp only
    rw [hPrepare, hLoop]
    simp only
    rw [if_pos hAll.2]
    split <;> rfl
  unfold inflateTrailer
  rw [hRemove]
  simp only
  rw [if_pos hNone]

end Step

------------------------------------------------------------
-- Verdicts
------------------------------------------------------------

/-
  The end of the stream is reported only for the checksum the
  card reported, and never once an error was.
-/
structure VerdictFinal
    (src : ByteMem)
    (trace : List InflateEvent)
    (s : InflStream) : Prop where
  ended :
    Returned .streamEnd trace →
      ∃ ex,
        lastExchange trace = some ex ∧
          (src.window
            (s.totalIn - trailerLen s.format) 4) =
              checksumBytes s.format ex.resp
  rejected :
    Returned .dataError trace → ¬ Returned .streamEnd trace

/- A call on a stream the trailer of which is not rejected. -/
def freshStep
    (src : ByteMem)
    (s : InflStream)
    (event : InflateEvent)
    (s' : InflStream) : Prop :=
  inflateStep src s event s' ∧ ¬ TrailerRejected s

theorem VerdictInv.final
    {src : ByteMem}
    {format : Format}
    {trace : List InflateEvent}
    {s : InflStream}
    (hInv : VerdictInv src format trace s) :
    VerdictFinal src trace s := by
  cases hInv with
  | blocks hBlocks hNoEnd hNoError =>
      exact ⟨fun hSome => absurd hSome hNoEnd,
        fun hSome => absurd hSome hNoError⟩
  | behind hBehind hLast hError hEnd =>
      rename_i ex start
      refine ⟨fun hSome => ⟨ex, hLast, ?_⟩,
        fun hSome hSome' =>
          (hError hSome).2 (hEnd hSome').2⟩
      rcases hEnd hSome with ⟨⟨hLen, hAll⟩, hSame⟩
      have hWhole := hBehind.ok.len
      have hTotalIn := hBehind.totalIn
      have hStart :
          s.totalIn - trailerLen s.format = start := by
        rw [hTotalIn, hAll, hWhole.resolve_left hLen]
        exact Nat.add_sub_cancel _ _
      rw [hStart, hBehind.format]
      exact hSame

/- The stream before any call. -/
theorem verdictInv_init
    (src : ByteMem) (s : InflStream) :
    VerdictInv src s.format [] (inflateInitState s) := by
  have hStat : finalEob 0 = false := by decide
  refine .blocks ⟨rfl, ⟨rfl, hStat⟩, ⟨fun _ => rfl, fun _ => rfl⟩,
    rfl, rfl⟩ ?_ ?_
  · simp [Returned]
  · simp [Returned]

theorem verdictInv_of_run
    {src : ByteMem}
    {s₀ s : InflStream}
    {trace : List InflateEvent}
    (hFormat : s₀.format ≠ .defl)
    (hRun :
      Run (freshStep src) (inflateInitState s₀) trace s) :
    VerdictInv src s₀.format trace s :=
  hRun.invariant (VerdictInv src s₀.format)
    (verdictInv_init src s₀)
    (fun _ _ _ _ hInv hStep =>
      verdictInv_step hFormat hInv hStep.2 hStep.1)

/- A call on a rejected trailer forgets the mismatch. -/
theorem BehindFinal.forgets
    {src : ByteMem}
    {format : Format}
    {resp : InflResp}
    {start : Nat}
    {s s' : InflStream}
    {event : InflateEvent}
    (hBehind : BehindFinal src format resp start s)
    (hRejected : TrailerRejected s)
    (hSmall : event.call.availIn ≤ zedcInflAvailInMax)
    (hNone : s.dict.obytesInDict = 0)
    (hStep : inflateStep src s event s') :
    event.rc = .streamEnd := by
  rcases event with ⟨call, rc, exchange⟩
  unfold inflateStep zedcInflate inflatePrepare
    inflateFlushOutputBuffer at hStep
  have hFew :
      ¬ (s.offer src call).availIn > zedcInflAvailInMax := by
    simpa [InflStream.availIn, InflStream.offer] using hSmall
  have hNone' : (s.offer src call).dict.obytesInDict = 0 :=
    hNone
  have hSeen :
      inflateEobSeen
          { s.offer src call with inpDataOffs := 0 } =
        { s.offer src call with
          inpDataOffs := 0
          eobSeen := true } :=
    if_pos hBehind.final
  have hTrailer :
      inflateTrailer
          { s.offer src call with
            inpDataOffs := 0
            eobSeen := true } =
        (.streamEnd,
          { s.offer src call with
            inpDataOffs := 0
            eobSeen := true }) :=
    inflateTrailer_complete hRejected.1 hNone'
  simp only [if_neg hFew, if_pos hNone'] at hStep
  unfold inflateEntry at hStep
  simp only [hSeen, hTrailer] at hStep
  exact (congrArg InflRet.rc (Option.some.inj hStep)).symm

/-
  The verdict is final in every run in which no call is made
  on a stream whose complete trailer has another checksum.
  Without output pending, such a call breaks it.
-/
theorem verdict_final_iff
    {src : ByteMem}
    {s₀ s : InflStream}
    {trace : List InflateEvent}
    (hFormat : s₀.format ≠ .defl)
    (hRun :
      Run (freshStep src) (inflateInitState s₀) trace s) :
    VerdictFinal src trace s ∧
    ∀ event s',
      inflateStep src s event s' →
      event.call.availIn ≤ zedcInflAvailInMax →
      s.dict.obytesInDict = 0 →
      (VerdictFinal src (trace ++ [event]) s' ↔
        ¬ TrailerRejected s) := by
  have hInv := verdictInv_of_run hFormat hRun
  refine ⟨hInv.final, fun event s' hStep hSmall hNone => ?_⟩
  constructor
  · intro hFinal hRejected
    cases hInv with
    | blocks hBlocks hNoEnd hNoError =>
        exact hRejected.1.1 hBlocks.len
    | behind hBehind hLast hError hEnd =>
        rename_i ex start
        have hRc :=
          hBehind.forgets hRejected hSmall hNone hStep
        rcases hBehind.step hFormat hStep with
          ⟨hNoEx, hVerdict⟩
        have hOk := hVerdict.behind.ok
        have hOld := hBehind.ok.len
        rcases hVerdict.ended hRc with ⟨⟨hLen, hAll⟩, _⟩
        rcases hFinal.ended
            (returned_append.mpr (Or.inr hRc)) with
          ⟨ex', hLast', hSame⟩
        rw [lastExchange_append, hNoEx, hLast,
          Option.none_or, Option.some.injEq] at hLast'
        subst hLast'
        have hStart :
            s'.totalIn - trailerLen s'.format = start := by
          rw [hVerdict.behind.totalIn, hAll,
            hOk.len.resolve_left hLen]
          exact Nat.add_sub_cancel _ _
        rw [hStart, hVerdict.behind.format] at hSame
        have hFour := trailerLen_ge hFormat
        rw [hBehind.format] at hOld
        have hRead : 4 ≤ s.postfx.idx := by
          rcases hRejected.1 with ⟨hSomeLen, hIs⟩
          omega
        exact hRejected.2
          ((hBehind.matches_iff hFormat hRead).mpr hSame)
  · intro hFresh
    exact (verdictInv_step hFormat hInv hFresh hStep).final

------------------------------------------------------------
-- A Forgotten Mismatch
------------------------------------------------------------

/- A card that finds the end of the data in one byte. -/
def endResp : InflResp :=
  { quietResp with inflStat := 0x05, inpProcessed := 1 }

/- A ZLIB stream with one byte of data. -/
def endStream : InflStream :=
  inflateInitState (InflStream.zeroed .zlib)

/- Header, data and trailer, the checksum being `adler`. -/
def endSrc (adler : UInt8) : ByteMem := fun i =>
  [0x78, 0x9c, 0x03, 0x00, 0x00, 0x00, adler].getD i 0

/- The whole stream is offered at once. -/
def endCall : InflateCall where
  availIn := 7
  availOut := 16
  flush := .noFlush
  env := ⟨fun _ _ => endResp⟩

/- A further call, without input. -/
def againCall : InflateCall := { endCall with availIn := 0 }

/- The stream after a mismatch was reported. -/
def mismatchStream : InflStream :=
  (endCall.ret (endSrc 2) endStream).strm

theorem mismatch_forgotten :
    Run (inflateStep (endSrc 2)) endStream
        ([endCall.event (endSrc 2) endStream] ++
          [againCall.event (endSrc 2) mismatchStream])
        (againCall.ret (endSrc 2) mismatchStream).strm ∧
    (endCall.event (endSrc 2) endStream).rc =
      .dataError ∧
    (againCall.event (endSrc 2) mismatchStream).rc =
      .streamEnd ∧
    ¬ VerdictFinal (endSrc 2)
        ([endCall.event (endSrc 2) endStream] ++
          [againCall.event (endSrc 2) mismatchStream])
        (againCall.ret (endSrc 2) mismatchStream).strm := by
  have hFirst :
      (endCall.event (endSrc 2) endStream).rc =
        .dataError := by decide
  have hAgain :
      (againCall.event (endSrc 2) mismatchStream).rc =
        .streamEnd := by decide
  refine ⟨?_, hFirst, hAgain, fun hFinal => ?_⟩
  · exact Run.next (Run.next Run.start
      (inflateStep_ret (by decide)))
      (inflateStep_ret (by decide))
  · exact hFinal.rejected ⟨_, by simp, hFirst⟩
      ⟨_, by simp, hAgain⟩

theorem verdict_final_end :
    VerdictFinal (endSrc 1)
        [endCall.event (endSrc 1) endStream]
        (endCall.ret (endSrc 1) endStream).strm ∧
      (endCall.event (endSrc 1) endStream).rc =
        .streamEnd ∧
      (VerdictFinal (endSrc 2)
          ([endCall.event (endSrc 2) endStream] ++
            [againCall.event (endSrc 2) mismatchStream])
          (againCall.ret (endSrc 2) mismatchStream).strm ↔
        ¬ TrailerRejected mismatchStream) := by
  have hRun :
      ∀ src : ByteMem,
        (zedcInflate .noFlush endCall.env
          (endStream.offer src endCall)).isSome →
        Run (freshStep src) endStream
          ([] ++ [endCall.event src endStream])
          (endCall.ret src endStream).strm :=
    fun src hSome => Run.next Run.start
      ⟨inflateStep_ret hSome,
        fun hRejected => hRejected.1.1 rfl⟩
  have hFormat : (InflStream.zeroed .zlib).format ≠ .defl :=
    fun hDefl => nomatch hDefl
  refine ⟨(verdict_final_iff hFormat
      (hRun _ (by decide))).1, by decide, ?_⟩
  exact (verdict_final_iff hFormat
      (hRun _ (by decide))).2 _ _
    (inflateStep_ret (by decide)) (by decide) (by decide)

end Zedc
