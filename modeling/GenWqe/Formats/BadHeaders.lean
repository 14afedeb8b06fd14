import GenWqe.Formats.HeaderSplits
import GenWqe.Session.Inflate

/-
  Headers that RFC 1950 and RFC 1952 do not allow, and what
  becomes of them in calls of `zedc_inflate` that are offered
  a string of bytes piece by piece.

  Key definitions include:
    * `Noncompliant`, `BadFixed`
    * `InvalidHeader`
    * `Collecting`

  Main results:
    * `FixedAt.loop`
    * `Collecting.call`
-/

namespace Zedc

open ByteMem Session

------------------------------------------------------------
-- What a Header Must Not Be
------------------------------------------------------------

/- One bit of the CRC-32 of RFC 1952, the low bit first. -/
def rfcCrcBit (c : UInt32) : UInt32 :=
  if c &&& 1 ≠ 0 then (c >>> 1) ^^^ 0xedb88320 else c >>> 1

def rfcCrc32 (bytes : List UInt8) : UInt32 :=
  bytes.foldl
    (fun c b => rfcCrcBit^[8] (c ^^^ b.toUInt32))
    0xffffffff ^^^ 0xffffffff

-- the check value of the digits from 1 to 9
example :
    rfcCrc32
        [0x31, 0x32, 0x33, 0x34, 0x35, 0x36, 0x37, 0x38,
          0x39] = 0xcbf43926 := by
  decide +kernel

/- CRC16: the low half of it, the low byte first. -/
def headerCrc16 (bytes : List UInt8) : List UInt8 :=
  [(rfcCrc32 bytes).toUInt8, (rfcCrc32 bytes >>> 8).toUInt8]

/-
  A header of GZIP, by its first bytes, that a decompressor is
  to give an error for: a reserved flag is set, or it is
  complete and its check sum is not that of its bytes.
-/
inductive Noncompliant (x : List UInt8) : Prop
  | reserved
      {flg : UInt8} {head : List UInt8} :
      head ∈ fixedPart flg →
      head <+: x →
      flg &&& 0xe0 ≠ 0 →
      Noncompliant x
  | check
      {flg : UInt8} {head crc : List UInt8} :
      head ++ crc ∈ flaggedHeaders UInt16.toNat flg →
      head ++ crc <+: x →
      flg &&& 0x02 ≠ 0 →
      crc.length = 2 →
      crc ≠ headerCrc16 head →
      Noncompliant x

/-
  The fixed part is there and is none of the format: other
  magic bytes, or, for ZLIB, another method, a window that is
  too large or a wrong check.
-/
def BadFixed : Format → List UInt8 → Prop
  | .defl, _ => False
  | .gzip, x => 10 ≤ x.length ∧ ¬gzipMagic <+: x
  | .zlib, x =>
      ∃ cmf flg, [cmf, flg] <+: x ∧
        (cmf.toNat % 16 ≠ 8 ∨ 7 < cmf.toNat / 16 ∨
          (cmf.toNat * 256 + flg.toNat) % 31 ≠ 0)

/- More bytes do not make it better. -/
theorem Noncompliant.mono
    {x y : List UInt8}
    (hFront : x <+: y)
    (hBad : Noncompliant x) : Noncompliant y := by
  cases hBad with
  | reserved hHead hIn hFlg =>
      exact .reserved hHead (hIn.trans hFront) hFlg
  | check hMem hIn hFlg hLen hCrc =>
      exact .check hMem (hIn.trans hFront) hFlg hLen hCrc

/- It begins as one of GZIP does. -/
theorem Noncompliant.magic
    {x : List UInt8}
    (hBad : Noncompliant x) : gzipMagic <+: x := by
  cases hBad with
  | @reserved flg head hHead hIn _ =>
      rw [mem_fixedPart_iff] at hHead
      exact ((List.prefix_append gzipMagic [flg]).trans
        hHead.2).trans hIn
  | @check flg head crc hMem hIn _ _ _ =>
      exact ((List.prefix_append gzipMagic [flg]).trans
        (flaggedHeaders_front hMem).1).trans hIn

/- The bytes of the fixed part. -/
def fixedLen : Format → Nat
  | .defl => 0
  | .gzip => 10
  | .zlib => 2

/- Its bits are cut out of the two bytes as one number. -/
theorem and_word
    {hi lo m : Nat}
    (hLo : lo < 256) :
    (hi * 2 ^ 8 + lo) &&& m =
      ((hi * 2 ^ 8) &&& m) ||| (lo &&& m) := by
  have hOr : hi * 2 ^ 8 + lo = hi * 2 ^ 8 ||| lo := by
    rw [Nat.mul_comm]
    exact Nat.two_pow_add_eq_or_of_lt hLo hi
  rw [hOr, Nat.and_or_distrib_right]

theorem zlibChecks_iff (cmf flg : UInt8) :
    ((cmf.toNat * 2 ^ 8 + flg.toNat) &&& 0x0f00 ≠ 0x0800 ∨
      (cmf.toNat * 2 ^ 8 + flg.toNat) &&& 0xf000 > 0x7000) ↔
      cmf.toNat % 16 ≠ 8 ∨ 7 < cmf.toNat / 16 := by
  have hHi : ∀ c < 256,
      (c * 2 ^ 8) &&& 0x0f00 = c % 16 * 256 ∧
        (c * 2 ^ 8) &&& 0xf000 = c / 16 * 4096 := by
    decide +kernel
  have hLo :
      ∀ f < 256, f &&& 0x0f00 = 0 ∧ f &&& 0xf000 = 0 := by
    decide +kernel
  have hCmf := hHi _ cmf.toNat_lt
  have hFlg := hLo _ flg.toNat_lt
  rw [and_word flg.toNat_lt, and_word flg.toNat_lt, hCmf.1,
    hCmf.2, hFlg.1, hFlg.2, Nat.or_zero, Nat.or_zero]
  omega

/- So many bytes of the fixed part are collected. -/
structure FixedAt
    (format : Format) (x : List UInt8) (p : Prefx) :
    Prop where
  short : p.idx < fixedLen format
  state : p.headerState = .headerStart
  bytes : ∀ i < p.idx, p.bytes i = x.getD i 0

section Parser

variable {x : List UInt8} {p : Prefx} {b : UInt8}
variable {s s' : InflStream} {rc : Rc}

/- The next byte stands behind those before. -/
theorem FixedAt.collect
    {format : Format}
    (hAt : FixedAt format x p)
    (hByte : b = x.getD p.idx 0) :
    (p.collect b).idx = p.idx ∧
      (p.collect b).headerState = .headerStart ∧
      ∀ i < p.idx + 1, (p.collect b).bytes i = x.getD i 0 := by
  have hShort := hAt.short
  have hStorage : fixedLen format ≤ zedcFormatStorage := by
    cases format <;> decide
  have hCollect :
      p.collect b =
        { p with bytes := p.bytes.store p.idx [b] } := by
    unfold Prefx.collect
    exact if_pos (by omega)
  rw [hCollect]
  refine ⟨rfl, hAt.state, fun i hLt => ?_⟩
  by_cases hLast : i = p.idx
  · subst hLast
    rw [hByte]
    change p.bytes.store p.idx _ p.idx = _
    rw [store_inside _ (Nat.le_refl _) (by simp),
      Nat.sub_self]
    rfl
  · change p.bytes.store p.idx [b] i = _
    rw [store_outside _ (Or.inl (by omega))]
    exact hAt.bytes i (by omega)

/- The tenth byte of GZIP is where its magic is looked at. -/
theorem gzipHeader_fixed
    {rc : HdrRc} {p' : Prefx}
    (hAt : FixedAt .gzip x p)
    (hByte : b = x.getD p.idx 0)
    (hRead :
      inflateRemGzipHeader b (p.collect b) = some (rc, p')) :
    (p.idx + 1 < 10 ∧ rc = .needMoreData ∧
        p' = p.collect b) ∨
      (BadFixed .gzip x → rc = .error) := by
  rcases hAt.collect hByte with ⟨hIdx, hState, hBytes⟩
  have hShort : p.idx < 10 := hAt.short
  unfold inflateRemGzipHeader at hRead
  by_cases hNine : (p.collect b).idx < 9
  · rw [if_pos hNine] at hRead
    cases hRead
    exact Or.inl ⟨by omega, rfl, rfl⟩
  · right
    rintro ⟨hTen, hMagic⟩
    rw [if_neg hNine, hState] at hRead
    generalize hPut :
      (if (p.collect b).idx = 9 then
        { p.collect b with headerState := .headerStart }
      else p.collect b) = q at hRead
    have hSame : q.bytes = (p.collect b).bytes := by
      rw [← hPut]
      split <;> rfl
    have hBad :
        q.bytes 0 ≠ 0x1f ∨ q.bytes 1 ≠ 0x8b ∨
          q.bytes 2 ≠ 0x08 := by
      rw [hSame, hBytes 0 (by omega), hBytes 1 (by omega),
        hBytes 2 (by omega)]
      by_contra hGood
      simp only [not_or, not_not] at hGood
      apply hMagic
      rcases x with _ | ⟨b₀, _ | ⟨b₁, _ | ⟨b₂, rest⟩⟩⟩
      · simp at hTen
      · simp at hTen
      · simp at hTen
      · simp only [List.getD_cons_zero, List.getD_cons_succ]
          at hGood
        rcases hGood with ⟨rfl, rfl, rfl⟩
        exact ⟨rest, rfl⟩
    have hStep :
        gzipHeaderStep b q .headerStart =
          some (.refuse q) := by
      simp only [gzipHeaderStep]
      rw [if_pos hBad]
    rw [gzipHeaderLoop_refuse (by decide) hStep] at hRead
    cases hRead
    rfl

/- The second byte of ZLIB is where both are. -/
theorem zlibHeader_fixed
    (hAt : FixedAt .zlib x p)
    (hByte : b = x.getD p.idx 0) :
    (p.idx + 1 < 2 ∧
        inflateRemZlibHeader (p.collect b) =
          ⟨.needMoreData,
            { p.collect b with
              headerState := .headerStart }, none⟩) ∨
      (BadFixed .zlib x →
        inflateRemZlibHeader (p.collect b) =
          ⟨.error, p.collect b, none⟩) := by
  rcases hAt.collect hByte with ⟨hIdx, hState, hBytes⟩
  have hShort : p.idx < 2 := hAt.short
  by_cases hZero : p.idx = 0
  · refine Or.inl ⟨by omega, ?_⟩
    unfold inflateRemZlibHeader
    exact if_pos (by omega)
  · right
    rintro ⟨cmf, flg, ⟨rest, rfl⟩, hWrong⟩
    have hFirst := hBytes 0 (by omega)
    have hSecond := hBytes 1 (by omega)
    simp only [List.cons_append, List.nil_append,
      List.getD_cons_zero, List.getD_cons_succ]
      at hFirst hSecond
    unfold inflateRemZlibHeader
    rw [if_neg (by omega), hState]
    simp only [zlibStartStep]
    rw [if_pos (by omega), hFirst, hSecond]
    by_cases hCheck :
        (cmf.toNat * 2 ^ 8 + flg.toNat) % 31 ≠ 0
    · exact if_pos hCheck
    · have hOther :
          cmf.toNat % 16 ≠ 8 ∨ 7 < cmf.toNat / 16 := by
        rcases hWrong with hCm | hCinfo | hFcheck
        · exact Or.inl hCm
        · exact Or.inr hCinfo
        · exact absurd hFcheck hCheck
      rw [if_neg hCheck,
        if_pos ((zlibChecks_iff cmf flg).mpr hOther)]

/- What is offered, by its first byte. -/
theorem offered_cons
    {rest : List UInt8} {i : Nat}
    (hBytes : b :: rest <+: x.drop i) :
    b = x.getD i 0 ∧ rest <+: x.drop (i + 1) := by
  rcases hBytes with ⟨more, hBytes⟩
  have hHere : x[i]? = some b := by
    rw [← List.head?_drop, ← hBytes]
    rfl
  refine ⟨?_, more, ?_⟩
  · rw [List.getD_eq_getElem?_getD, hHere]
    rfl
  · rw [← List.drop_drop, ← hBytes]
    rfl

/- One byte either way, by the parser of the format. -/
theorem FixedAt.byte
    {hdrRc : HdrRc}
    (hFormat : s.format ≠ .defl)
    (hAt : FixedAt s.format x s.prefx)
    (hByte : b = x.getD s.prefx.idx 0)
    (hRead : inflateRemHeaderByte b s = some (hdrRc, s')) :
    (hdrRc = .needMoreData ∧
        FixedAt s.format x s'.passHeaderByte.prefx) ∨
      (BadFixed s.format x → hdrRc = .error) := by
  rcases hAt.collect hByte with ⟨-, hState, hKeep⟩
  have hNext :
      s'.passHeaderByte.prefx.idx = s.prefx.idx + 1 :=
    congrArg (· + 1) (inflateRemHeaderByte_keeps hRead).idx
  unfold inflateRemHeaderByte at hRead
  cases hIs : s.format with
  | defl => exact absurd hIs hFormat
  | gzip =>
      rw [hIs] at hAt
      rw [if_pos hIs] at hRead
      cases hParse :
          inflateRemGzipHeader b (s.prefx.collect b) with
      | none =>
          rw [hParse] at hRead
          cases hRead
      | some out =>
          rcases out with ⟨rc₁, p₁⟩
          rw [hParse] at hRead
          cases hRead
          rcases gzipHeader_fixed hAt hByte hParse with
            ⟨hLt, hRc, rfl⟩ | hBad
          · refine Or.inl ⟨hRc, ?_, hState, ?_⟩
            · rw [hNext]
              exact hLt
            · rw [hNext]
              exact hKeep
          · exact Or.inr hBad
  | zlib =>
      rw [hIs] at hAt
      rw [if_neg (by rw [hIs]; decide)] at hRead
      rcases zlibHeader_fixed hAt hByte with
        ⟨hLt, hParse⟩ | hBad
      · rw [hParse] at hRead
        cases hRead
        refine Or.inl ⟨rfl, ?_, rfl, ?_⟩
        · rw [hNext]
          exact hLt
        · rw [hNext]
          exact hKeep
      · right
        intro hWrong
        rw [hBad hWrong] at hRead
        cases hRead
        rfl

/-
  The loop collects what is offered, or it comes to the end of
  the fixed part and refuses one that is bad.
-/
theorem FixedAt.loop
    {bs : List UInt8}
    (hFormat : s.format ≠ .defl)
    (hAt : FixedAt s.format x s.prefx)
    (hBytes : bs <+: x.drop s.prefx.idx)
    (hLoop : remHeaderLoop bs s = some (rc, s')) :
    (rc = .ok ∧ FixedAt s.format x s'.prefx ∧
        s'.prefx.idx = s.prefx.idx + bs.length) ∨
      (BadFixed s.format x → rc = .errGzipHdr) := by
  induction bs generalizing s with
  | nil =>
      cases hLoop
      exact Or.inl ⟨rfl, hAt, rfl⟩
  | cons b rest ih =>
      rcases offered_cons hBytes with ⟨hFirst, hRest⟩
      unfold remHeaderLoop at hLoop
      cases hRead : inflateRemHeaderByte b s with
      | none =>
          rw [hRead] at hLoop
          cases hLoop
      | some result =>
          rcases result with ⟨hdrRc, s₁⟩
          have hTaken := inflateRemHeaderByte_keeps hRead
          rw [hRead] at hLoop
          rcases hAt.byte hFormat hFirst hRead with
            ⟨rfl, hAt₁⟩ | hBad
          · have hFormat₁ :
                s₁.passHeaderByte.format = s.format :=
              (congrArg InflStream.format hTaken.strm :)
            have hNext : s₁.passHeaderByte.prefx.idx =
                s.prefx.idx + 1 :=
              congrArg (· + 1) hTaken.idx
            rw [← hFormat₁] at hFormat hAt₁ ⊢
            rcases ih hFormat hAt₁
                (by rw [hNext]; exact hRest) hLoop with
              ⟨hRc, hAt', hSum⟩ | hLater
            · refine Or.inl ⟨hRc, hAt', ?_⟩
              rw [hSum, hNext, List.length_cons]
              omega
            · exact Or.inr hLater
          · right
            intro hWrong
            rw [hBad hWrong] at hLoop
            cases hLoop
            rfl

end Parser

------------------------------------------------------------
-- Calls in Front of It
------------------------------------------------------------

/- The fixed part is being collected, and nothing else. -/
structure Collecting
    (x : List UInt8) (s : InflStream) : Prop where
  part : FixedAt s.format x s.prefx
  quiet : Quiet s
  scratch : s.save.scratchBits = 0
  unprepared : s.prefx.len = 0 → s.prefx.idx = 0
  place : s.totalIn = s.prefx.idx

section Runs

variable {x : List UInt8} {s s' s₁ : InflStream}
variable {flush : Flush} {rc : Rc}

/- A stream that was just set up is in front of it. -/
theorem Collecting.init
    (x : List UInt8)
    (hFormat : s.format ≠ .defl) :
    Collecting x (inflateInitState s) := by
  refine ⟨⟨?_, rfl, fun i hLt => ?_⟩,
    quiet_initState s, rfl, fun _ => rfl, rfl⟩
  · change 0 < fixedLen s.format
    cases hIs : s.format with
    | defl => exact absurd hIs hFormat
    | gzip => decide
    | zlib => decide
  · exact absurd hLt (Nat.not_lt_zero i)

/- Not all of the fixed part was taken. -/
theorem Collecting.short
    (hHere : Collecting x s) : s.totalIn < fixedLen s.format := by
  rw [hHere.place]
  exact hHere.part.short

/- The preparation leaves what was collected. -/
theorem Collecting.prepare
    (hHere : Collecting x s) :
    (remHeaderPrepare s).format = s.format ∧
      (remHeaderPrepare s).prefx.idx = s.prefx.idx ∧
      FixedAt (remHeaderPrepare s).format x
        (remHeaderPrepare s).prefx := by
  have hParts :
      (remHeaderPrepare s).format = s.format ∧
        (remHeaderPrepare s).prefx.idx = s.prefx.idx ∧
        (remHeaderPrepare s).prefx.bytes = s.prefx.bytes ∧
        (remHeaderPrepare s).prefx.headerState =
          s.prefx.headerState := by
    unfold remHeaderPrepare
    split
    · rename_i hLen
      exact ⟨rfl, (hHere.unprepared hLen).symm, rfl, rfl⟩
    · exact ⟨rfl, rfl, rfl, rfl⟩
  rcases hParts with ⟨hSame, hAt, hBytes, hState⟩
  refine ⟨hSame, hAt, ?_, hState.trans hHere.part.state, ?_⟩
  · rw [hSame, hAt]
    exact hHere.part.short
  · rw [hAt, hBytes]
    exact hHere.part.bytes

/- Removing a header only collects, or it refuses. -/
theorem Collecting.header
    (hHere : Collecting x s)
    (hIn : s.nextIn <+: x.drop s.totalIn)
    (hHeader : HeaderDone flush s s₁ rc) :
    (rc = .ok ∧ Collecting x s₁ ∧ s₁.nextIn = []) ∨
      (BadFixed s.format x → rc = .errGzipHdr) := by
  have hOpen : s.prefx.headerState ≠ .headerDone := by
    rw [hHere.part.state]
    decide
  have hFormat : s.format ≠ .defl := by
    intro hDefl
    have hShort := hHere.part.short
    rw [hDefl] at hShort
    exact absurd hShort (Nat.not_lt_zero _)
  unfold HeaderDone inflateHeader at hHeader
  rw [if_pos hOpen] at hHeader
  rcases inflateFormatRemHeader_spec hHere.unprepared hHeader
    with ⟨⟨k, hLe, hIdx, hMark, hStrm⟩, -⟩
  unfold inflateFormatRemHeader at hHeader
  rw [if_neg hFormat] at hHeader
  rcases hHere.prepare with ⟨hSame, hAt, hFixed⟩
  simp only at hHeader
  cases hLoop :
      remHeaderLoop s.nextIn (remHeaderPrepare s) with
  | none =>
      rw [hLoop] at hHeader
      cases hHeader
  | some result =>
      rcases result with ⟨rc₁, s₂⟩
      rw [hLoop] at hHeader
      have hEnd : rc₁ = rc ∧ s₂.prefx = s₁.prefx := by
        simp only at hHeader
        split at hHeader <;> cases hHeader <;>
          exact ⟨rfl, rfl⟩
      rcases hFixed.loop (by rw [hSame]; exact hFormat)
          (by rw [hAt, ← hHere.place]; exact hIn) hLoop with
        ⟨hRc, hAt₂, hSum⟩ | hBad
      · left
        rw [hEnd.2] at hAt₂ hSum
        have hAll : k = s.nextIn.length := by omega
        have hSame₁ : s₁.format = s.format :=
          (congrArg InflStream.format hStrm :)
        refine ⟨hEnd.1.symm.trans hRc,
          ⟨?_, ⟨⟨?_, ?_⟩, ?_⟩, ?_, hMark, ?_⟩, ?_⟩
        · rw [hSame₁, ← hSame]
          exact hAt₂
        · exact (congrArg InflStream.eobSeen hStrm).trans
            hHere.quiet.data.eobSeen
        · have hAsv : s₁.asv = s.asv :=
            (congrArg InflStream.asv hStrm :)
          rw [hAsv]
          exact hHere.quiet.data.inflStat
        · have hDict : s₁.dict = s.dict :=
            (congrArg InflStream.dict hStrm :)
          rw [hDict]
          exact hHere.quiet.drained
        · have hSave : s₁.save = s.save :=
            (congrArg InflStream.save hStrm :)
          rw [hSave]
          exact hHere.scratch
        · have hTotal : s₁.totalIn = s.totalIn + k :=
            (congrArg InflStream.totalIn hStrm :)
          rw [hTotal, hIdx, hHere.place]
        · have hNext : s₁.nextIn = s.nextIn.drop k :=
            (congrArg InflStream.nextIn hStrm :)
          rw [hNext, hAll, List.drop_length]
      · right
        intro hWrong
        rw [← hEnd.1]
        exact hBad (by rw [hSame]; exact hWrong)

/- It is about what belongs to the header. -/
theorem Collecting.congr
    (hHere : Collecting x s)
    (hFormat : s'.format = s.format)
    (hPrefx : s'.prefx = s.prefx)
    (hQuiet : Quiet s')
    (hSave : s'.save = s.save)
    (hTotal : s'.totalIn = s.totalIn) :
    Collecting x s' := by
  refine ⟨?_, hQuiet, ?_, ?_, ?_⟩
  · rw [hFormat, hPrefx]
    exact hHere.part
  · rw [hSave]
    exact hHere.scratch
  · rw [hPrefx]
    exact hHere.unprepared
  · rw [hTotal, hPrefx]
    exact hHere.place

/-
  A call in the fixed part that is not refused: with output
  space it collects all it is offered.
-/
structure Collected
    (x : List UInt8) (s : InflStream) (ret : InflRet) :
    Prop where
  next : Collecting x ret.strm
  rc : ret.rc = .ok
  nextOut : ret.strm.nextOut = s.nextOut
  availOut : ret.strm.availOut = s.availOut
  all : s.availOut ≠ 0 → ret.strm.nextIn = []

/- The offset into the input is set back before the header. -/
theorem Collecting.cleared
    (hHere : Collecting x s) :
    Collecting x { s with inpDataOffs := 0 } :=
  hHere.congr rfl rfl
    ⟨⟨hHere.quiet.data.eobSeen, hHere.quiet.data.inflStat⟩,
      hHere.quiet.drained⟩
    rfl rfl

/-
  In front of the header nothing is pending, and behind the
  attempt to remove a bad one no input is left for a DDCB.
-/
theorem Collecting.passed
    {n : Nat} {s₂ : InflStream}
    (hHere : Collecting x s)
    (hIn : s.nextIn <+: x.drop s.totalIn)
    (hBad : BadFixed s.format x)
    (hFlushed : Flushed s s₁ n)
    (hDone : HeaderDone flush s₁ s₂ rc) :
    rc = .ok ∧ Collected x s ⟨.ok, s₂, none⟩ ∧
        s₂.availIn = 0 ∧ s₂.save.scratchBits = 0 ∧
        finalEob s₂.asv.inflStat = false ∨
      rc = .errGzipHdr := by
  rw [Flushed.drained hFlushed hHere.quiet.drained] at hDone
  rcases hHere.cleared.header hIn hDone with
    ⟨hRc, hNext, hNone⟩ | hRefused
  · left
    rcases (inflateHeader_passed hDone).1 with ⟨k, hPassed⟩
    have hLen : s₂.availIn = 0 := by
      unfold InflStream.availIn
      rw [hNone]
      rfl
    refine ⟨hRc, ⟨hNext, rfl, ?_, ?_, fun _ => hNone⟩,
      hLen, hNext.scratch, hNext.quiet.data.inflStat⟩
    · change s₂.nextOut = s.nextOut
      rw [hPassed.strm]
      rfl
    · change s₂.availOut = s.availOut
      rw [hPassed.strm]
      rfl
  · exact Or.inr (hRefused hBad)

/- Over a bad one a call comes to nothing else. -/
theorem Collecting.call
    {env : InflateEnv} {ret : InflRet}
    (hHere : Collecting x s)
    (hIn : s.nextIn <+: x.drop s.totalIn)
    (hBad : BadFixed s.format x)
    (hCall : zedcInflate flush env s = some ret) :
    Collected x s ret ∨ ret.rc.IsNegative := by
  have hError :
      Rc.memError.IsNegative ∧ Rc.streamError.IsNegative ∧
        Rc.errGzipHdr.IsNegative := by
    decide
  unfold zedcInflate at hCall
  cases hPrepare : inflatePrepare flush s with
  | none =>
      rw [hPrepare] at hCall
      cases hCall
  | some result =>
      have hOutcome := inflatePrepare_outcome hPrepare
      rw [hPrepare] at hCall
      cases hOutcome with
      | tooLarge _ =>
          cases hCall
          exact Or.inr hError.1
      | overrun _ _ =>
          cases hCall
          exact Or.inr hError.2.1
      | trailer _ hFlushed hEob =>
          rw [Flushed.drained hFlushed hHere.quiet.drained,
            eobSeen_of_inData hHere.cleared.quiet.data] at hEob
          cases hEob
      | full _ hFlushed _ hNone =>
          cases hCall
          have hSame :=
            Flushed.drained hFlushed hHere.quiet.drained
          subst hSame
          exact Or.inl ⟨hHere.cleared, rfl, rfl, rfl,
            fun hSpace => absurd hNone hSpace⟩
      | header _ hFlushed _ _ hDone hRc =>
          cases hCall
          rcases hHere.passed hIn hBad hFlushed hDone with
            ⟨hOk, -⟩ | hRefused
          · exact absurd hOk hRc
          · rw [hRefused]
            exact Or.inr hError.2.2
      | block _ hFlushed _ _ hDone _ =>
          cases hCall
          rcases hHere.passed hIn hBad hFlushed hDone with
            ⟨-, hNext, -⟩ | hRefused
          · exact Or.inl hNext
          · cases hRefused
      | noInput _ hFlushed _ _ hDone _ _ _ =>
          cases hCall
          rcases hHere.passed hIn hBad hFlushed hDone with
            ⟨-, hNext, -, -, hMore⟩ | hRefused
          · have hOk : inflateChkRet _ = .ok :=
              if_neg fun hEnd => by
                rw [hMore] at hEnd
                cases hEnd.1
            rw [hOk]
            exact Or.inl hNext
          · cases hRefused
      | ready _ hFlushed _ _ hDone _ hSome =>
          rcases hHere.passed hIn hBad hFlushed hDone with
            ⟨-, -, hNone, hScratch, -⟩ | hRefused
          · exact absurd ⟨hNone, hScratch⟩ hSome
          · cases hRefused

end Runs

end Zedc
