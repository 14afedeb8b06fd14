import GenWqe.Inflate.Stream

/-
  Removal and verification of the GZIP and ZLIB trailers.

  Key definitions include:
    * `inflateFormatRemTrailer`
    * `TrailerMatches`

  Main results:
    * `inflateFormatRemTrailer_spec`
    * `inflateFormatRemTrailer_more`
-/

------------------------------------------------------------
-- Trailer Bytes
------------------------------------------------------------

namespace Zedc

/- The length of the trailer of a format. -/
def trailerLen : Format → Nat
  | .defl => 0
  | .gzip => 8
  | .zlib => 4

/- The checksum in `postfx` is the one of the stream. -/
def TrailerMatches (s : InflStream) : Prop :=
  match s.format with
  | .defl => True
  | .gzip => readLe32 s.postfx.bytes 0 = s.crc32
  | .zlib => readBe32 s.postfx.bytes 0 = s.adler32

instance (s : InflStream) : Decidable (TrailerMatches s) := by
  unfold TrailerMatches
  split <;> infer_instance

/- The next byte of the input moves to `postfx`. -/
def InflStream.takeTrailerByte
    (b : UInt8) (s : InflStream) : InflStream :=
  { s.advance 1 with
    postfx :=
      { s.postfx with
        bytes := s.postfx.bytes.store s.postfx.idx [b]
        idx := s.postfx.idx + 1 } }

/- The CRC of a GZIP trailer is read from its first bytes. -/
def checkCrc32 (s : InflStream) : Option Rc × InflStream :=
  let fileCrc32 := readLe32 s.postfx.bytes 0
  let s₁ :=
    { s with
      postfx := { s.postfx with fileCrc32 := fileCrc32 } }
  if fileCrc32 ≠ s.crc32 then (some .errCrc32, s₁)
  else (none, s₁)

/- The whole trailer has been collected. -/
def checkTrailer (s : InflStream) : Option Rc × InflStream :=
  if s.format = .gzip then
    checkCrc32
      { s with
        postfx :=
          { s.postfx with
            fileSize := readLe32 s.postfx.bytes 4 } }
  else
    let fileAdler32 := readBe32 s.postfx.bytes 0
    let s₁ :=
      { s with
        postfx := { s.postfx with fileAdler32 := fileAdler32 } }
    if fileAdler32 ≠ s.adler32 then (some .errAdler32, s₁)
    else (none, s₁)

/- The checks behind each byte; `some rc` is a failed one. -/
def trailerChecks (s : InflStream) : Option Rc × InflStream :=
  let early :=
    if s.postfx.idx = 4 ∧ s.format = .gzip then checkCrc32 s
    else (none, s)
  match early with
  | (some rc, s₁) => (some rc, s₁)
  | (none, s₁) =>
    if s₁.postfx.idx ≥ s₁.postfx.len then checkTrailer s₁
    else (none, s₁)

------------------------------------------------------------
-- Removing a Trailer
------------------------------------------------------------

/- The loop of `inflate_format_rem_trailer`. -/
def remTrailerLoop :
    List UInt8 → InflStream → Option Rc × InflStream
  | [], s => (none, s)
  | b :: rest, s =>
    if s.postfx.idx < s.postfx.len then
      match trailerChecks (s.takeTrailerByte b) with
      | (some rc, s₁) => (some rc, s₁)
      | (none, s₁) => remTrailerLoop rest s₁
    else (none, s)

/- The preparation of the trailer removal. -/
def remTrailerPrepare (s : InflStream) : InflStream :=
  if s.postfx.len = 0 then
    { s with
      postfx :=
        { s.postfx with
          idx := 0
          len := if s.format = .gzip then 8 else 4 } }
  else s

/- Zero, one, or a negative code. -/
inductive TrailerRc where
  | removed
  | mustReenter
  | failed (rc : Rc)
  deriving DecidableEq

/- `inflate_format_rem_trailer` -/
def inflateFormatRemTrailer (s : InflStream) :
    TrailerRc × InflStream :=
  if s.format = .defl then (.removed, s)
  else
    let s₁ := remTrailerPrepare s
    match remTrailerLoop s₁.nextIn s₁ with
    | (some rc, s₂) => (.failed rc, s₂)
    | (none, s₂) =>
      if s₂.postfx.idx = s₂.postfx.len then (.removed, s₂)
      else (.mustReenter, s₂)

------------------------------------------------------------
-- What Removing a Trailer Changes
------------------------------------------------------------

/-
  `k` bytes of the input have moved to `postfx`, and nothing
  else has changed but the values read from them.
-/
structure TrailerTaken (s s' : InflStream) (k : Nat) :
    Prop where
  le : k ≤ s.nextIn.length
  idx : s'.postfx.idx = s.postfx.idx + k
  len : s'.postfx.len = s.postfx.len
  bytes :
    s'.postfx.bytes.window 0 s'.postfx.idx =
      s.postfx.bytes.window 0 s.postfx.idx ++
        s.nextIn.take k
  strm : s' = { s.advance k with postfx := s'.postfx }

theorem TrailerTaken.refl (s : InflStream) :
    TrailerTaken s s 0 :=
  ⟨Nat.zero_le _, rfl, rfl, by simp,
    by simp [InflStream.advance]⟩

theorem TrailerTaken.trans
    {s s₁ s₂ : InflStream}
    {j k : Nat}
    (hFirst : TrailerTaken s s₁ j)
    (hRest : TrailerTaken s₁ s₂ k) :
    TrailerTaken s s₂ (j + k) := by
  have hStrm := hFirst.strm
  have hNextIn : s₁.nextIn = s.nextIn.drop j :=
    (congrArg InflStream.nextIn hStrm :)
  have hLe := hRest.le
  have hLeFirst := hFirst.le
  rw [hNextIn, List.length_drop] at hLe
  refine ⟨by omega, ?_, hRest.len.trans hFirst.len, ?_, ?_⟩
  · rw [hRest.idx, hFirst.idx, Nat.add_assoc]
  · rw [hRest.bytes, hFirst.bytes, hNextIn,
      List.append_assoc, ← List.take_add]
  · rw [hRest.strm]
    simp only [InflStream.advance]
    rw [hStrm]
    simp only [InflStream.advance, List.drop_drop,
      Nat.add_assoc]

/-
  What a check comes to: the checksums agree or it fails, and
  only the values read from the trailer are changed.
-/
structure Checked
    (s : InflStream) (result : Option Rc × InflStream) :
    Prop where
  strm :
    ∃ crc size adler,
      result.2 =
        { s with
          postfx :=
            { s.postfx with
              fileCrc32 := crc
              fileSize := size
              fileAdler32 := adler } }
  failed :
    ∀ rc, result.1 = some rc →
      ¬ TrailerMatches s ∧ rc.IsNegative

theorem Checked.refl (s : InflStream) :
    Checked s (none, s) :=
  ⟨⟨_, _, _, rfl⟩, fun _ hSome => by cases hSome⟩

/- A check behind a check that passed. -/
theorem Checked.trans
    {s s₁ : InflStream}
    {passed : Option Rc}
    {result : Option Rc × InflStream}
    (hFirst : Checked s (passed, s₁))
    (hNext : Checked s₁ result) :
    Checked s result := by
  rcases hFirst.strm with ⟨crc, size, adler, hEq⟩
  rcases hNext.strm with ⟨crc', size', adler', hEq'⟩
  simp only at hEq
  subst hEq
  exact ⟨⟨crc', size', adler', hEq'⟩, hNext.failed⟩

/- The checksums compared stay the same. -/
theorem Checked.matches_iff
    {s : InflStream}
    {result : Option Rc × InflStream}
    (hCheck : Checked s result) :
    TrailerMatches result.2 ↔ TrailerMatches s := by
  rcases hCheck.strm with ⟨crc, size, adler, hEq⟩
  rw [hEq]
  exact Iff.rfl

theorem checkCrc32_checked
    {s : InflStream}
    (hGzip : s.format = .gzip) :
    Checked s (checkCrc32 s) ∧
      ((checkCrc32 s).1 = none → TrailerMatches s) := by
  have hIff :
      TrailerMatches s ↔
        readLe32 s.postfx.bytes 0 = s.crc32 := by
    unfold TrailerMatches
    rw [hGzip]
  unfold checkCrc32
  simp only
  split
  · rename_i hDiffer
    refine ⟨⟨⟨_, _, _, rfl⟩, ?_⟩, fun hNone => by cases hNone⟩
    intro rc hRc
    cases hRc
    exact ⟨fun hMatch => hDiffer (hIff.mp hMatch),
      by decide⟩
  · rename_i hSame
    refine ⟨⟨⟨_, _, _, rfl⟩, fun _ hRc => by cases hRc⟩, ?_⟩
    exact fun _ => hIff.mpr (Decidable.not_not.mp hSame)

theorem checkTrailer_checked
    {s : InflStream}
    (hFormat : s.format ≠ .defl) :
    Checked s (checkTrailer s) ∧
      ((checkTrailer s).1 = none → TrailerMatches s) := by
  unfold checkTrailer
  by_cases hGzip : s.format = .gzip
  · rw [if_pos hGzip]
    have hRead :
        Checked s
          (none,
            { s with
              postfx :=
                { s.postfx with
                  fileSize := readLe32 s.postfx.bytes 4 } }) :=
      ⟨⟨_, _, _, rfl⟩, fun _ hRc => by cases hRc⟩
    rcases checkCrc32_checked
        (by exact hGzip :
          { s with
            postfx :=
              { s.postfx with
                fileSize :=
                  readLe32 s.postfx.bytes 4 } }.format =
            .gzip) with
      ⟨hCheck, hPass⟩
    exact ⟨hRead.trans hCheck,
      fun hNone => hRead.matches_iff.mp (hPass hNone)⟩
  · rw [if_neg hGzip]
    have hIff :
        TrailerMatches s ↔
          readBe32 s.postfx.bytes 0 = s.adler32 := by
      unfold TrailerMatches
      cases hKind : s.format with
      | defl => exact absurd hKind hFormat
      | gzip => exact absurd hKind hGzip
      | zlib => rfl
    simp only
    split
    · rename_i hDiffer
      refine ⟨⟨⟨_, _, _, rfl⟩, ?_⟩,
        fun hNone => by cases hNone⟩
      intro rc hRc
      cases hRc
      exact ⟨fun hMatch => hDiffer (hIff.mp hMatch),
        by decide⟩
    · rename_i hSame
      refine ⟨⟨⟨_, _, _, rfl⟩,
        fun _ hRc => by cases hRc⟩, ?_⟩
      exact fun _ => hIff.mpr (Decidable.not_not.mp hSame)

/-
  The checks behind a byte: they fail only where the checksums
  differ, and behind the last byte wherever they do.
-/
theorem trailerChecks_checked
    {s : InflStream}
    (hFormat : s.format ≠ .defl) :
    Checked s (trailerChecks s) ∧
      (s.postfx.len ≤ s.postfx.idx →
        (trailerChecks s).1 = none → TrailerMatches s) ∧
      (∀ rc, (trailerChecks s).1 = some rc →
        4 ≤ s.postfx.idx ∨ s.postfx.len ≤ s.postfx.idx) := by
  have hEarly :
      Checked s
          (if s.postfx.idx = 4 ∧ s.format = .gzip then
            checkCrc32 s
          else (none, s)) ∧
        (∀ rc,
          (if s.postfx.idx = 4 ∧ s.format = .gzip then
            checkCrc32 s
          else (none, s)).1 = some rc →
            4 ≤ s.postfx.idx) := by
    split
    · rename_i hFour
      exact ⟨(checkCrc32_checked hFour.2).1,
        fun _ _ => hFour.1.ge⟩
    · exact ⟨Checked.refl s, fun _ hRc => by cases hRc⟩
  unfold trailerChecks
  simp only
  generalize (if s.postfx.idx = 4 ∧ s.format = .gzip then
      checkCrc32 s
    else (none, s)) = early at hEarly ⊢
  rcases early with ⟨rc | rc, s₁⟩
  · rcases hEarly.1.strm with ⟨crc, size, adler, hEq⟩
    simp only at hEq
    have hFormat₁ : s₁.format ≠ .defl := by
      rw [hEq]
      exact hFormat
    have hPostfx :
        s₁.postfx.idx = s.postfx.idx ∧
          s₁.postfx.len = s.postfx.len := by
      rw [hEq]
      exact ⟨rfl, rfl⟩
    simp only [ge_iff_le, hPostfx]
    split
    · rename_i hLast
      rcases checkTrailer_checked hFormat₁ with
        ⟨hCheck, hPass⟩
      exact ⟨hEarly.1.trans hCheck,
        fun _ hNone =>
          hEarly.1.matches_iff.mp (hPass hNone),
        fun _ _ => Or.inr hLast⟩
    · rename_i hMore
      exact ⟨hEarly.1, fun hLast => absurd hLast hMore,
        fun _ hRc => by cases hRc⟩
  · refine ⟨hEarly.1, fun _ hNone => ?_,
      fun rc' hRc => Or.inl (hEarly.2 rc' hRc)⟩
    cases hNone

/- One byte is taken, and checked. -/
theorem trailerByte_taken
    {b : UInt8}
    {rest : List UInt8}
    {s : InflStream}
    (hFormat : s.format ≠ .defl)
    (hBytes : s.nextIn = b :: rest) :
    TrailerTaken s (trailerChecks (s.takeTrailerByte b)).2 1 := by
  have hFormat' : (s.takeTrailerByte b).format ≠ .defl :=
    hFormat
  rcases (trailerChecks_checked hFormat').1.strm with
    ⟨crc, size, adler, hEq⟩
  rw [hEq]
  refine ⟨by simp [hBytes], rfl, rfl, ?_, rfl⟩
  simp only [InflStream.takeTrailerByte]
  rw [ByteMem.window_add, Nat.zero_add]
  congr 1
  · exact ByteMem.window_store_of_disjoint _
      (Or.inl (Nat.zero_add _).le)
  · rw [hBytes]
    exact ByteMem.window_store_same _ _ [b]

theorem remTrailerLoop_done
    (bs : List UInt8)
    {s : InflStream}
    (hAll : s.postfx.len ≤ s.postfx.idx) :
    remTrailerLoop bs s = (none, s) := by
  cases bs with
  | nil => rfl
  | cons b rest =>
      unfold remTrailerLoop
      rw [if_neg (Nat.not_lt.mpr hAll)]

/-
  The loop takes bytes until the trailer is complete, the
  input ends, or a check fails.
-/
theorem remTrailerLoop_spec
    {bs : List UInt8}
    {s s' : InflStream}
    {result : Option Rc}
    (hFormat : s.format ≠ .defl)
    (hBytes : s.nextIn = bs)
    (hIdx : s.postfx.idx ≤ s.postfx.len)
    (hLoop : remTrailerLoop bs s = (result, s')) :
    (∃ k, TrailerTaken s s' k) ∧
    s'.postfx.idx ≤ s'.postfx.len ∧
    (result = none → s'.postfx.idx = s'.postfx.len →
      s.postfx.idx = s.postfx.len ∨ TrailerMatches s') ∧
    (∀ rc, result = some rc →
      ¬ TrailerMatches s' ∧ rc.IsNegative ∧
        (4 ≤ s'.postfx.idx ∨
          s'.postfx.len ≤ s'.postfx.idx)) := by
  induction bs generalizing s with
  | nil =>
      cases hLoop
      exact ⟨⟨0, TrailerTaken.refl _⟩, hIdx,
        fun _ hAll => Or.inl hAll, fun _ hRc => by cases hRc⟩
  | cons b rest ih =>
      unfold remTrailerLoop at hLoop
      by_cases hMore : s.postfx.idx < s.postfx.len
      · rw [if_pos hMore] at hLoop
        have hFormat' : (s.takeTrailerByte b).format ≠ .defl :=
          hFormat
        have hTaken := trailerByte_taken hFormat hBytes
        rcases trailerChecks_checked hFormat' with
          ⟨hCheck, hPass, hWhere⟩
        have hMatches := hCheck.matches_iff
        rcases hCheck.strm with ⟨crc, size, adler, hStrm⟩
        generalize trailerChecks (s.takeTrailerByte b) =
          checked at *
        rcases checked with ⟨rc | rc, s₁⟩
        · simp only at hLoop hTaken hMatches hStrm hPass
          have hLen := hTaken.len
          have hIdx₁ := hTaken.idx
          have hNextIn : s₁.nextIn = rest := by
            rw [hTaken.strm]
            simp [InflStream.advance, hBytes]
          have hFormat₁ : s₁.format ≠ .defl := by
            rw [hStrm]
            exact hFormat
          rcases ih hFormat₁ hNextIn (by omega) hLoop with
            ⟨⟨k, hRest⟩, hLe, hDone, hFailed⟩
          refine ⟨⟨1 + k, hTaken.trans hRest⟩, hLe, ?_,
            hFailed⟩
          intro hNone hAll
          rcases hDone hNone hAll with hLast | hMatch
          · -- the byte just taken was the last one
            rw [remTrailerLoop_done _ hLast.ge] at hLoop
            cases hLoop
            exact Or.inr
              (hMatches.mpr
                (hPass (by rw [hStrm] at hLast; exact hLast.ge)
                  trivial))
          · exact Or.inr hMatch
        · cases hLoop
          refine ⟨⟨1, hTaken⟩, ?_,
            (fun hNone => nomatch hNone), ?_⟩
          · have hLen := hTaken.len
            have hIdx₁ := hTaken.idx
            simp only at hLen hIdx₁
            omega
          · intro rc' hRc
            cases hRc
            have hFail := hCheck.failed rc rfl
            refine ⟨fun hMatch => hFail.1 (hMatches.mp hMatch),
              hFail.2, ?_⟩
            simp only at hStrm
            rw [hStrm]
            exact hWhere rc rfl
      · rw [if_neg hMore] at hLoop
        cases hLoop
        exact ⟨⟨0, TrailerTaken.refl _⟩, hIdx,
          fun _ hAll => Or.inl hAll,
          fun _ hRc => by cases hRc⟩

/- The counters of the trailer between calls. -/
structure TrailerOk (s : InflStream) : Prop where
  idx : s.postfx.idx ≤ s.postfx.len
  len : s.postfx.len = 0 ∨ s.postfx.len = trailerLen s.format

theorem trailerLen_ge
    {format : Format} (hFormat : format ≠ .defl) :
    4 ≤ trailerLen format := by
  cases format with
  | defl => exact absurd rfl hFormat
  | gzip => decide
  | zlib => decide

/- A call has taken `k` bytes of the trailer of the stream. -/
structure TrailerRemoved
    (s s' : InflStream) (k : Nat) : Prop where
  le : k ≤ s.nextIn.length
  idx : s'.postfx.idx = s.postfx.idx + k
  len : s'.postfx.len = trailerLen s.format
  ok : s'.postfx.idx ≤ s'.postfx.len
  bytes :
    s'.postfx.bytes.window 0 s'.postfx.idx =
      s.postfx.bytes.window 0 s.postfx.idx ++
        s.nextIn.take k
  strm : s' = { s.advance k with postfx := s'.postfx }

/-
  The trailer of a GZIP or ZLIB stream is removed once it is
  complete; the call that takes its last byte removes it only
  if the checksums agree, and a failure is a difference.
-/
theorem inflateFormatRemTrailer_spec
    {s s' : InflStream}
    {rc : TrailerRc}
    (hFormat : s.format ≠ .defl)
    (hOk : TrailerOk s)
    (hRemove : inflateFormatRemTrailer s = (rc, s')) :
    (∃ k, TrailerRemoved s s' k) ∧
    (rc = .removed →
      s'.postfx.idx = trailerLen s.format ∧
        (s.postfx.idx = trailerLen s.format ∨
          TrailerMatches s')) ∧
    (∀ code, rc = .failed code →
      ¬ TrailerMatches s' ∧ 4 ≤ s'.postfx.idx) := by
  have hFour := trailerLen_ge hFormat
  have hPrepared :
      TrailerTaken { s with postfx :=
        { s.postfx with len := trailerLen s.format } }
          (remTrailerPrepare s) 0 ∧
        (remTrailerPrepare s).nextIn = s.nextIn ∧
        (remTrailerPrepare s).format = s.format := by
    have hLenOr := hOk.len
    have hLe := hOk.idx
    unfold remTrailerPrepare
    by_cases hZero : s.postfx.len = 0
    · rw [if_pos hZero]
      have hIdx : s.postfx.idx = 0 := by omega
      have hLen :
          (if s.format = .gzip then 8 else 4) =
            trailerLen s.format := by
        cases hKind : s.format with
        | defl => exact absurd hKind hFormat
        | gzip => rfl
        | zlib => rfl
      refine ⟨⟨Nat.zero_le _, ?_, hLen, ?_, ?_⟩, rfl, rfl⟩
      · simp [hIdx]
      · simp [hIdx]
      · simp [InflStream.advance]
    · rw [if_neg hZero]
      have hLen : s.postfx.len = trailerLen s.format := by
        omega
      rw [← hLen]
      exact ⟨TrailerTaken.refl s, rfl, rfl⟩
  rcases hPrepared with ⟨hStart, hNextIn, hKind⟩
  have hIdx₁ := hStart.idx
  have hLen₁ := hStart.len
  simp only at hIdx₁ hLen₁
  have hLe₁ :
      (remTrailerPrepare s).postfx.idx ≤
        (remTrailerPrepare s).postfx.len := by
    have hLe := hOk.idx
    have hLenOr := hOk.len
    omega
  unfold inflateFormatRemTrailer at hRemove
  rw [if_neg hFormat] at hRemove
  simp only at hRemove
  cases hLoop :
      remTrailerLoop (remTrailerPrepare s).nextIn
        (remTrailerPrepare s) with
  | mk result s₂ =>
      rw [hLoop] at hRemove
      rcases remTrailerLoop_spec (by rwa [hKind]) rfl hLe₁
        hLoop with ⟨⟨k, hTaken⟩, hLe₂, hDone, hFailed⟩
      have hWhole := hStart.trans hTaken
      rw [Nat.zero_add] at hWhole
      have hLen₂ : s₂.postfx.len = trailerLen s.format :=
        hWhole.len
      have hRemoved : TrailerRemoved s s₂ k :=
        ⟨hWhole.le, hWhole.idx, hLen₂, hLe₂, hWhole.bytes,
          hWhole.strm⟩
      cases result with
      | some code =>
          simp only [Prod.mk.injEq] at hRemove
          rcases hRemove with ⟨rfl, rfl⟩
          refine ⟨⟨k, hRemoved⟩, (fun hRc => nomatch hRc), ?_⟩
          intro code' hRc
          rcases hFailed code rfl with ⟨hDiffer, _, hWhere⟩
          exact ⟨hDiffer, by omega⟩
      | none =>
          simp only at hRemove
          by_cases hAll : s₂.postfx.idx = s₂.postfx.len
          · rw [if_pos hAll] at hRemove
            cases hRemove
            refine ⟨⟨k, hRemoved⟩, fun _ => ?_,
              fun _ hRc => nomatch hRc⟩
            refine ⟨hAll.trans hLen₂, ?_⟩
            rcases hDone rfl hAll with hBefore | hMatch
            · exact Or.inl
                (hIdx₁.symm.trans (hBefore.trans hLen₁))
            · exact Or.inr hMatch
          · rw [if_neg hAll] at hRemove
            cases hRemove
            exact ⟨⟨k, hRemoved⟩, (fun hRc => nomatch hRc),
              fun _ hRc => nomatch hRc⟩

/- The loop stops early only where the trailer is complete. -/
theorem remTrailerLoop_rest
    {bs : List UInt8}
    {s s' : InflStream}
    (hFormat : s.format ≠ .defl)
    (hBytes : s.nextIn = bs)
    (hLoop : remTrailerLoop bs s = (none, s')) :
    s'.nextIn = [] ∨ s'.postfx.len ≤ s'.postfx.idx := by
  induction bs generalizing s with
  | nil =>
      cases hLoop
      exact Or.inl hBytes
  | cons b rest ih =>
      unfold remTrailerLoop at hLoop
      by_cases hMore : s.postfx.idx < s.postfx.len
      · rw [if_pos hMore] at hLoop
        have hStrm := (trailerByte_taken hFormat hBytes).strm
        generalize trailerChecks (s.takeTrailerByte b) =
          checked at hLoop hStrm
        rcases checked with ⟨rc | rc, s₁⟩
        · simp only at hLoop hStrm
          refine ih ?_ ?_ hLoop
          · rw [hStrm]
            exact hFormat
          · rw [hStrm]
            simp [InflStream.advance, hBytes]
        · cases hLoop
      · rw [if_neg hMore] at hLoop
        cases hLoop
        exact Or.inr (Nat.not_lt.mp hMore)

/- More input is needed only where all of it was taken. -/
theorem inflateFormatRemTrailer_more
    {s s' : InflStream}
    (hRemove :
      inflateFormatRemTrailer s = (.mustReenter, s')) :
    s'.nextIn = [] ∧ s'.postfx.idx ≠ s'.postfx.len ∨
      s'.postfx.len < s'.postfx.idx := by
  unfold inflateFormatRemTrailer at hRemove
  by_cases hDefl : s.format = .defl
  · rw [if_pos hDefl] at hRemove
    cases hRemove
  · rw [if_neg hDefl] at hRemove
    have hKind : (remTrailerPrepare s).format ≠ .defl := by
      unfold remTrailerPrepare
      split <;> exact hDefl
    cases hLoop :
        remTrailerLoop (remTrailerPrepare s).nextIn
          (remTrailerPrepare s) with
    | mk result s₂ =>
        simp only [hLoop] at hRemove
        cases result with
        | some rc => cases hRemove
        | none =>
            simp only at hRemove
            by_cases hAll : s₂.postfx.idx = s₂.postfx.len
            · rw [if_pos hAll] at hRemove
              cases hRemove
            · rw [if_neg hAll] at hRemove
              cases hRemove
              rcases remTrailerLoop_rest hKind rfl hLoop with
                hNone | hLe
              · exact Or.inl ⟨hNone, hAll⟩
              · exact Or.inr (by omega)

end Zedc
