import GenWqe.Inflate.Stream

/-
  Removal of the GZIP and ZLIB headers from an inflate stream,
  one input byte at a time.

  Key definitions include:
    * `gzipHeaderStep` and `inflateRemGzipHeader`
    * `inflateRemZlibHeader`
    * `inflateFormatRemHeader`

  Main results:
    * `gzipHeaderLoop_fuel`
    * `inflateFormatRemHeader_spec`
-/

------------------------------------------------------------
-- The GZIP Header
------------------------------------------------------------

namespace Zedc

/- `INFLATE_HDR_OK` to `INFLATE_HDR_ERROR` -/
inductive HdrRc where
  | ok
  | needMoreData
  | zlibNeedDict
  | error
  deriving DecidableEq, Repr

/-
  What one turn of the parsing loop does: go on in a state,
  with or without waiting for the next byte, or refuse the
  header.
-/
inductive HdrStep where
  | goOn (p : Prefx) (next : HeadState)
  | moreData (p : Prefx) (next : HeadState)
  | refuse (p : Prefx)

/- The same, where a state always goes on. -/
def HdrStep.of
    (more : Bool) (p : Prefx) (next : HeadState) : HdrStep :=
  if more then .moreData p next else .goOn p next

/- Set the registered header structure. -/
def Prefx.setHead
    (f : GzedcHeader → GzedcHeader) (p : Prefx) : Prefx :=
  { p with gzipHead := p.gzipHead.map f }

/-
  Store a byte at `gzip_header_idx` of a buffer of a header
  structure and advance the index. A full buffer refuses the
  header; a store through a NULL pointer is a fault.
-/
def storeHeaderByte
    (max : GzedcHeader → UInt32)
    (buf : GzedcHeader → Option ByteMem)
    (setBuf : ByteMem → GzedcHeader → GzedcHeader)
    (b : UInt8)
    (p : Prefx) : Option (Bool × Prefx) :=
  match p.gzipHead with
  | none => some (true, p)
  | some gzH =>
    if (p.gzipHeaderIdx : Int) <
        asSigned 32 (max gzH).toNat then
      match buf gzH with
      | none => none
      | some m =>
        some (true,
          { p with
            gzipHead :=
              some (setBuf (m.store p.gzipHeaderIdx [b]) gzH)
            gzipHeaderIdx := p.gzipHeaderIdx + 1 })
    else some (false, p)

/- `gz_h->extra[my_idx++] = *strm->next_in` -/
def storeExtra (b : UInt8) (p : Prefx) :
    Option (Bool × Prefx) :=
  storeHeaderByte (·.extraMax) (·.extra)
    (fun m gzH => { gzH with extra := some m }) b p

/- `gz_h->name[my_idx++] = *strm->next_in` -/
def storeName (b : UInt8) (p : Prefx) :
    Option (Bool × Prefx) :=
  storeHeaderByte (·.nameMax) (·.name)
    (fun m gzH => { gzH with name := some m }) b p

/- `gz_h->comment[my_idx++] = *strm->next_in` -/
def storeComment (b : UInt8) (p : Prefx) :
    Option (Bool × Prefx) :=
  storeHeaderByte (·.commMax) (·.comment)
    (fun m gzH => { gzH with comment := some m }) b p

/- The step of a state that stores a byte before it goes on. -/
def HdrStep.stored
    (result : Option (Bool × Prefx))
    (more : Bool)
    (next : HeadState)
    (p : Prefx) : Option HdrStep :=
  match result with
  | none => none
  | some (true, p') => some (.of more p' next)
  | some (false, _) => some (.refuse p)

/- One turn of the loop of `inflate_rem_gzip_header`. -/
def gzipHeaderStep (b : UInt8) (p : Prefx)
    (state : HeadState) : Option HdrStep :=
  let flg := p.bytes 3
  match state with
  | .headerStart =>
    if p.bytes 0 ≠ 0x1f ∨ p.bytes 1 ≠ 0x8b ∨
        p.bytes 2 ≠ 0x08 then
      some (.refuse p)
    else
      some (.goOn
        (p.setHead fun gzH =>
          { gzH with
            time :=
              (p.bytes 4).toNat + (p.bytes 5).toNat * 2 ^ 8 +
                (p.bytes 6).toNat * 2 ^ 16 +
                (p.bytes 7).toNat * 2 ^ 24
            xflags := p.bytes 8
            os := p.bytes 9 })
        .flagsCheckEmpty)
  | .flagsCheckEmpty =>
    some (.goOn p
      (if flg = 0 then .headerDone else .flagsCheckExtra))
  | .flagsCheckExtra =>
    if flg &&& 0x04 ≠ 0 then
      some (.moreData p .flagsGetExtraLen1)
    else some (.goOn p .flagsCheckFname)
  | .flagsGetExtraLen1 =>
    some (.moreData
      { p with xlen := b.toUInt16, gzipHeaderIdx := 0 }
      .flagsGetExtraLen2)
  | .flagsGetExtraLen2 =>
    let xlen := p.xlen ||| b.toUInt16 <<< 8
    some (.moreData
      ({ p with xlen := xlen }.setHead fun gzH =>
        { gzH with extraLen := xlen })
      .flagsGetExtra)
  | .flagsGetExtra =>
    if p.xlen = 1 then
      HdrStep.stored (storeExtra b p) false .flagsCheckFname p
    else
      let p₁ := { p with xlen := p.xlen - 1 }
      HdrStep.stored (storeExtra b p₁) true .flagsGetExtra p₁
  | .flagsCheckFname =>
    if flg &&& 0x08 ≠ 0 then
      some (.moreData { p with gzipHeaderIdx := 0 }
        .flagsGetFname)
    else some (.goOn p .flagsCheckFcomment)
  | .flagsGetFname =>
    if b = 0 then
      HdrStep.stored (storeName b p) false
        .flagsCheckFcomment p
    else
      HdrStep.stored (storeName b p) true .flagsGetFname p
  | .flagsCheckFcomment =>
    if flg &&& 0x10 ≠ 0 then
      some (.moreData { p with gzipHeaderIdx := 0 }
        .flagsGetFcomment)
    else some (.goOn p .flagsCheckFhcrc)
  | .flagsGetFcomment =>
    if b = 0 then
      HdrStep.stored (storeComment b p) false
        .flagsCheckFhcrc p
    else
      HdrStep.stored (storeComment b p) true
        .flagsGetFcomment p
  | .flagsCheckFhcrc =>
    if flg &&& 0x02 ≠ 0 then
      some (.moreData p .flagsGetFhcrc1)
    else some (.goOn p .flagsCheckFtext)
  | .flagsGetFhcrc1 =>
    some (.moreData { p with gzipHcrc := b.toUInt16 }
      .flagsGetFhcrc2)
  | .flagsGetFhcrc2 =>
    some (.goOn
      { p with
        gzipHcrc := p.gzipHcrc ||| b.toUInt16 <<< 8 }
      .flagsCheckFtext)
  | .flagsCheckFtext =>
    some (.goOn
      (if flg &&& 0x01 ≠ 0 then
        p.setHead fun gzH => { gzH with text := true }
      else p)
      .headerDone)
  | .zlibAdler => some (.goOn p .zlibAdler)
  | .headerDone => some (.goOn p .headerDone)

/- What stands behind the loop of the GZIP parser. -/
def gzipHeaderEnd
    (rc : HdrRc) (p : Prefx) (next : HeadState) :
    HdrRc × Prefx :=
  let p₁ :=
    if next = .headerDone then
      p.setHead fun gzH => { gzH with done := true }
    else p
  (rc, { p₁ with headerState := next })

/-
  The loop. Its states only ever go forward, so that a turn
  for each of them is enough (see `gzipHeaderLoop_fuel`).
-/
def gzipHeaderLoop (b : UInt8) :
    Nat → Prefx → HeadState → Option (HdrRc × Prefx)
  | 0, p, _ => some (.error, p)
  | fuel + 1, p, state =>
    if state = .headerDone then
      some (gzipHeaderEnd .ok p .headerDone)
    else
      match gzipHeaderStep b p state with
      | none => none
      | some (.refuse p₁) => some (.error, p₁)
      | some (.moreData p₁ next) =>
        some (gzipHeaderEnd .needMoreData p₁ next)
      | some (.goOn p₁ next) => gzipHeaderLoop b fuel p₁ next

/- `inflate_rem_gzip_header`, `b` being `*strm->next_in` -/
def inflateRemGzipHeader (b : UInt8) (p : Prefx) :
    Option (HdrRc × Prefx) :=
  if p.idx < 9 then some (.needMoreData, p)
  else
    gzipHeaderLoop b 16
      (if p.idx = 9 then
        { p with headerState := .headerStart }
      else p)
      p.headerState

/- The counters are kept, and whether a header is registered. -/
structure Prefx.Kept (p p' : Prefx) : Prop where
  idx : p'.idx = p.idx
  len : p'.len = p.len
  head : p'.gzipHead.isSome = p.gzipHead.isSome

theorem Prefx.Kept.refl (p : Prefx) : p.Kept p :=
  ⟨rfl, rfl, rfl⟩

theorem Prefx.Kept.trans
    {p p₁ p₂ : Prefx}
    (hFirst : p.Kept p₁)
    (hNext : p₁.Kept p₂) : p.Kept p₂ :=
  ⟨hNext.idx.trans hFirst.idx, hNext.len.trans hFirst.len,
    hNext.head.trans hFirst.head⟩

theorem Prefx.setHead_kept
    (f : GzedcHeader → GzedcHeader) (p : Prefx) :
    p.Kept (p.setHead f) :=
  ⟨rfl, rfl, Option.isSome_map⟩

/- A store into the header structure leaves the counters. -/
theorem storeHeaderByte_keeps
    {max : GzedcHeader → UInt32}
    {buf : GzedcHeader → Option ByteMem}
    {setBuf : ByteMem → GzedcHeader → GzedcHeader}
    {b : UInt8}
    {p p' : Prefx}
    {ok : Bool}
    (hStore :
      storeHeaderByte max buf setBuf b p = some (ok, p')) :
    p.Kept p' := by
  unfold storeHeaderByte at hStore
  split at hStore
  · cases hStore
    exact .refl p
  · rename_i hHead
    split at hStore
    · split at hStore
      · cases hStore
      · cases hStore
        exact ⟨rfl, rfl, by rw [hHead]; rfl⟩
    · cases hStore
      exact .refl p

/- The parser's state behind a turn of the loop. -/
def HdrStep.prefx : HdrStep → Prefx
  | .goOn p _ => p
  | .moreData p _ => p
  | .refuse p => p

theorem HdrStep.stored_keeps
    {max : GzedcHeader → UInt32}
    {buf : GzedcHeader → Option ByteMem}
    {setBuf : ByteMem → GzedcHeader → GzedcHeader}
    {b : UInt8}
    {p : Prefx}
    {more : Bool}
    {next : HeadState}
    {step : HdrStep}
    (hStep :
      HdrStep.stored (storeHeaderByte max buf setBuf b p)
        more next p = some step) :
    p.Kept step.prefx := by
  cases hStore : storeHeaderByte max buf setBuf b p with
  | none =>
      rw [hStore] at hStep
      cases hStep
  | some result =>
      rcases result with ⟨ok, p'⟩
      have hKeeps := storeHeaderByte_keeps hStore
      rw [hStore] at hStep
      cases ok with
      | false =>
          cases hStep
          exact .refl p
      | true =>
          cases hStep
          cases more <;> exact hKeeps

/- No turn of the loop touches the counters. -/
theorem gzipHeaderStep_keeps
    {b : UInt8}
    {p : Prefx}
    {state : HeadState}
    {step : HdrStep}
    (hStep : gzipHeaderStep b p state = some step) :
    p.Kept step.prefx := by
  cases state with
  | headerStart =>
      simp only [gzipHeaderStep] at hStep
      split at hStep <;> cases hStep
      · exact .refl p
      · exact p.setHead_kept _
  | flagsGetExtra =>
      simp only [gzipHeaderStep] at hStep
      split at hStep
      · exact HdrStep.stored_keeps hStep
      · have hStored := HdrStep.stored_keeps hStep
        exact ⟨hStored.idx, hStored.len, hStored.head⟩
  | flagsGetFname =>
      simp only [gzipHeaderStep] at hStep
      split at hStep <;> exact HdrStep.stored_keeps hStep
  | flagsGetFcomment =>
      simp only [gzipHeaderStep] at hStep
      split at hStep <;> exact HdrStep.stored_keeps hStep
  | flagsCheckExtra | flagsCheckFname | flagsCheckFcomment
  | flagsCheckFhcrc =>
      simp only [gzipHeaderStep] at hStep
      split at hStep <;> cases hStep <;>
        exact ⟨rfl, rfl, rfl⟩
  | flagsCheckFtext =>
      simp only [gzipHeaderStep, Option.some.injEq] at hStep
      subst hStep
      unfold HdrStep.prefx
      simp only
      split
      · exact p.setHead_kept _
      · exact .refl p
  | flagsGetExtraLen2 =>
      cases hStep
      exact ⟨rfl, rfl, Option.isSome_map⟩
  | flagsCheckEmpty | flagsGetExtraLen1
  | flagsGetFhcrc1 | flagsGetFhcrc2 | zlibAdler
  | headerDone =>
      cases hStep
      exact ⟨rfl, rfl, rfl⟩

theorem gzipHeaderEnd_keeps
    (rc : HdrRc) (p : Prefx) (next : HeadState) :
    p.Kept (gzipHeaderEnd rc p next).2 := by
  unfold gzipHeaderEnd
  simp only
  split
  · exact ⟨rfl, rfl, Option.isSome_map⟩
  · exact ⟨rfl, rfl, rfl⟩

theorem gzipHeaderLoop_keeps
    {b : UInt8}
    {fuel : Nat}
    {p p' : Prefx}
    {state : HeadState}
    {rc : HdrRc}
    (hLoop :
      gzipHeaderLoop b fuel p state = some (rc, p')) :
    p.Kept p' := by
  induction fuel generalizing p state with
  | zero =>
      cases hLoop
      exact .refl _
  | succ fuel ih =>
      unfold gzipHeaderLoop at hLoop
      by_cases hDone : state = .headerDone
      · rw [if_pos hDone] at hLoop
        have hEnd := gzipHeaderEnd_keeps .ok p .headerDone
        rw [Option.some.inj hLoop] at hEnd
        exact hEnd
      · rw [if_neg hDone] at hLoop
        cases hStep : gzipHeaderStep b p state with
        | none =>
            rw [hStep] at hLoop
            cases hLoop
        | some step =>
            have hKeeps := gzipHeaderStep_keeps hStep
            rw [hStep] at hLoop
            cases step with
            | refuse p₁ =>
                cases hLoop
                exact hKeeps
            | moreData p₁ next =>
                have hEnd :=
                  gzipHeaderEnd_keeps .needMoreData p₁ next
                rw [Option.some.inj hLoop] at hEnd
                exact hKeeps.trans hEnd
            | goOn p₁ next =>
                exact hKeeps.trans (ih hLoop)

/- The place of a state in the order of `head_state`. -/
def HeadState.rank : HeadState → Nat
  | .headerStart => 0
  | .flagsCheckEmpty => 1
  | .flagsCheckExtra => 2
  | .flagsGetExtraLen1 => 3
  | .flagsGetExtraLen2 => 4
  | .flagsGetExtra => 5
  | .flagsCheckFname => 6
  | .flagsGetFname => 7
  | .flagsCheckFcomment => 8
  | .flagsGetFcomment => 9
  | .flagsCheckFhcrc => 10
  | .flagsGetFhcrc1 => 11
  | .flagsGetFhcrc2 => 12
  | .flagsCheckFtext => 13
  | .zlibAdler => 14
  | .headerDone => 15

theorem HdrStep.stored_goOn
    {result : Option (Bool × Prefx)}
    {more : Bool}
    {next next' : HeadState}
    {p p' : Prefx}
    (hStep :
      HdrStep.stored result more next p =
        some (.goOn p' next')) :
    more = false ∧ next' = next := by
  unfold HdrStep.stored at hStep
  split at hStep
  · cases hStep
  · cases more with
    | false =>
        cases hStep
        exact ⟨rfl, rfl⟩
    | true => cases hStep
  · cases hStep

/- A turn that does not wait for input goes forward. -/
theorem gzipHeaderStep_forward
    {b : UInt8}
    {p p' : Prefx}
    {state next : HeadState}
    (hDone : state ≠ .headerDone)
    (hZlib : state ≠ .zlibAdler)
    (hStep :
      gzipHeaderStep b p state = some (.goOn p' next)) :
    state.rank < next.rank ∧ next ≠ .zlibAdler := by
  cases state with
  | headerDone => exact absurd rfl hDone
  | zlibAdler => exact absurd rfl hZlib
  | flagsGetExtra | flagsGetFname | flagsGetFcomment =>
      simp only [gzipHeaderStep] at hStep
      split at hStep
      · rcases HdrStep.stored_goOn hStep with ⟨_, rfl⟩
        decide
      · rcases HdrStep.stored_goOn hStep with ⟨hMore, _⟩
        cases hMore
  | headerStart | flagsCheckExtra | flagsCheckFname
  | flagsCheckFcomment | flagsCheckFhcrc =>
      simp only [gzipHeaderStep] at hStep
      split at hStep <;> cases hStep
      decide
  | flagsCheckEmpty =>
      cases hStep
      split <;> decide
  | flagsGetExtraLen1 | flagsGetExtraLen2
  | flagsGetFhcrc1 => cases hStep
  | flagsGetFhcrc2 | flagsCheckFtext =>
      cases hStep
      decide

/- Enough turns give the result that more turns give. -/
theorem gzipHeaderLoop_fuel
    (b : UInt8)
    {fuel : Nat}
    (p : Prefx)
    {state : HeadState}
    (hZlib : state ≠ .zlibAdler)
    (hFuel : 16 ≤ fuel + state.rank)
    (more : Nat) :
    gzipHeaderLoop b (fuel + more) p state =
      gzipHeaderLoop b fuel p state := by
  induction fuel generalizing p state with
  | zero =>
      have hRank : state.rank ≤ 15 := by
        cases state <;> decide
      omega
  | succ fuel ih =>
      rw [Nat.add_right_comm]
      unfold gzipHeaderLoop
      by_cases hDone : state = .headerDone
      · simp [hDone]
      · simp only [hDone, if_false]
        cases hStep : gzipHeaderStep b p state with
        | none => rfl
        | some step =>
            cases step with
            | refuse _ => rfl
            | moreData _ _ => rfl
            | goOn p₁ next =>
                rcases gzipHeaderStep_forward hDone hZlib
                  hStep with ⟨hForward, hNext⟩
                exact ih p₁ hNext (by omega)

------------------------------------------------------------
-- The ZLIB Header
------------------------------------------------------------

/-
  What the ZLIB parser leaves: its answer, the header state,
  and the dictionary checksum where one was read.
-/
structure ZlibHdrRet where
  rc : HdrRc
  prefx : Prefx
  dictid : Option UInt32

/- The state `ZLIB_ADLER` of `inflate_rem_zlib_header`. -/
def zlibAdlerStep (p : Prefx) : ZlibHdrRet :=
  if p.idx = 5 then
    ⟨.zlibNeedDict, { p with headerState := .headerDone },
      some
        ((p.bytes 2).toUInt32 <<< 24 |||
          (p.bytes 3).toUInt32 <<< 16 |||
          (p.bytes 4).toUInt32 <<< 8 |||
          (p.bytes 5).toUInt32)⟩
  else
    ⟨.needMoreData, { p with headerState := .zlibAdler },
      none⟩

/- The state `HEADER_START` of `inflate_rem_zlib_header`. -/
def zlibStartStep (p : Prefx) : ZlibHdrRet :=
  let val16 :=
    (p.bytes 0).toNat * 2 ^ 8 + (p.bytes 1).toNat
  if p.idx = 1 then
    if val16 % 31 ≠ 0 then ⟨.error, p, none⟩
    else if val16 &&& 0x0f00 ≠ 0x0800 ∨
        val16 &&& 0xf000 > 0x7000 then
      ⟨.error, p, none⟩
    else if val16 &&& 0x0020 ≠ 0 then
      ⟨.needMoreData, { p with headerState := .zlibAdler },
        none⟩
    else ⟨.ok, { p with headerState := .headerDone }, none⟩
  else
    ⟨.needMoreData, { p with headerState := .headerStart },
      none⟩

/-
  `inflate_rem_zlib_header`. No state of the GZIP parser is
  ever entered on a ZLIB stream.
-/
def inflateRemZlibHeader (p : Prefx) : ZlibHdrRet :=
  if p.idx < 1 then
    ⟨.needMoreData, { p with headerState := .headerStart },
      none⟩
  else
    match p.headerState with
    | .headerStart => zlibStartStep p
    | .zlibAdler => zlibAdlerStep p
    | _ => ⟨.ok, p, none⟩

------------------------------------------------------------
-- Removing a Header
------------------------------------------------------------

/- `prefx` with the next byte in it. -/
def Prefx.collect (b : UInt8) (p : Prefx) : Prefx :=
  if p.idx < zedcFormatStorage then
    { p with bytes := p.bytes.store p.idx [b] }
  else p

theorem inflateRemGzipHeader_keeps
    {b : UInt8}
    {p p' : Prefx}
    {rc : HdrRc}
    (hParse : inflateRemGzipHeader b p = some (rc, p')) :
    p.Kept p' := by
  unfold inflateRemGzipHeader at hParse
  split at hParse
  · cases hParse
    exact ⟨rfl, rfl, rfl⟩
  · have hKeeps := gzipHeaderLoop_keeps hParse
    split at hKeeps
    · exact ⟨hKeeps.idx, hKeeps.len, hKeeps.head⟩
    · exact hKeeps

theorem inflateRemZlibHeader_keeps (p : Prefx) :
    p.Kept (inflateRemZlibHeader p).prefx := by
  unfold inflateRemZlibHeader zlibStartStep zlibAdlerStep
  simp only
  split
  · exact ⟨rfl, rfl, rfl⟩
  · split
    · split_ifs <;> exact ⟨rfl, rfl, rfl⟩
    · split_ifs <;> exact ⟨rfl, rfl, rfl⟩
    · exact ⟨rfl, rfl, rfl⟩

theorem Prefx.collect_keeps (b : UInt8) (p : Prefx) :
    p.Kept (p.collect b) := by
  unfold Prefx.collect
  split <;> exact ⟨rfl, rfl, rfl⟩

/- The parser of the format, on the byte at `next_in`. -/
def inflateRemHeaderByte (b : UInt8) (s : InflStream) :
    Option (HdrRc × InflStream) :=
  let p := s.prefx.collect b
  if s.format = .gzip then
    match inflateRemGzipHeader b p with
    | none => none
    | some (rc, p₁) => some (rc, { s with prefx := p₁ })
  else
    let ret := inflateRemZlibHeader p
    match ret.dictid with
    | none => some (ret.rc, { s with prefx := ret.prefx })
    | some dictid =>
      some (ret.rc,
        { s with
          prefx := ret.prefx
          dictAdler32 := dictid
          adler32 := dictid
          havedict := false })

/- The byte was parsed: move on to the next one. -/
def InflStream.passHeaderByte (s : InflStream) : InflStream :=
  { s.advance 1 with
    prefx := { s.prefx with idx := s.prefx.idx + 1 } }

/- The loop of `inflate_format_rem_header`. -/
def remHeaderLoop :
    List UInt8 → InflStream → Option (Rc × InflStream)
  | [], s => some (.ok, s)
  | b :: rest, s =>
    match inflateRemHeaderByte b s with
    | none => none
    | some (rc, s₁) =>
      match rc with
      | .ok => some (.ok, s₁.passHeaderByte)
      | .error => some (.errGzipHdr, s₁.passHeaderByte)
      | .zlibNeedDict => some (.needDict, s₁.passHeaderByte)
      | .needMoreData => remHeaderLoop rest s₁.passHeaderByte

/- The preparation of the header removal. -/
def remHeaderPrepare (s : InflStream) : InflStream :=
  if s.prefx.len = 0 then
    { s with
      dataType80 := false
      prefx :=
        { s.prefx with
          idx := 0
          len := if s.format = .gzip then 10 else 2 } }
  else { s with dataType80 := false }

/- `inflate_format_rem_header` -/
def inflateFormatRemHeader (flush : Flush) (s : InflStream) :
    Option (Rc × InflStream) :=
  if s.format = .defl then some (.ok, s)
  else
    let blockReq := s.prefx.len == 0 && flush == .block
    match remHeaderLoop s.nextIn (remHeaderPrepare s) with
    | none => none
    | some (rc, s₁) =>
      if blockReq && rc == .ok then
        some (rc, { s₁ with dataType80 := true })
      else some (rc, s₁)

------------------------------------------------------------
-- What Removing a Header Changes
------------------------------------------------------------

/-
  Of the stream, only what belongs to the header is changed,
  and the position in the input by the bytes taken.
-/
structure HeaderTaken (s s' : InflStream) (k : Nat) :
    Prop where
  le : k ≤ s.nextIn.length
  idx : s'.prefx.idx = s.prefx.idx + k
  len : s'.prefx.len = s.prefx.len
  head : s'.prefx.gzipHead.isSome = s.prefx.gzipHead.isSome
  strm :
    s' =
      { s.advance k with
        prefx := s'.prefx
        dictAdler32 := s'.dictAdler32
        adler32 := s'.adler32
        havedict := s'.havedict }

theorem inflateRemHeaderByte_keeps
    {b : UInt8}
    {s s' : InflStream}
    {rc : HdrRc}
    (hByte : inflateRemHeaderByte b s = some (rc, s')) :
    HeaderTaken s s' 0 := by
  have hCollect := s.prefx.collect_keeps b
  unfold inflateRemHeaderByte at hByte
  simp only at hByte
  by_cases hGzip : s.format = .gzip
  · rw [if_pos hGzip] at hByte
    cases hParse :
        inflateRemGzipHeader b (s.prefx.collect b) with
    | none =>
        rw [hParse] at hByte
        cases hByte
    | some result =>
        rcases result with ⟨rc₁, p₁⟩
        have hKeeps := inflateRemGzipHeader_keeps hParse
        rw [hParse] at hByte
        cases hByte
        have hBoth := hCollect.trans hKeeps
        exact ⟨Nat.zero_le _, hBoth.idx, hBoth.len,
          hBoth.head, rfl⟩
  · rw [if_neg hGzip] at hByte
    have hBoth :=
      hCollect.trans
        (inflateRemZlibHeader_keeps (s.prefx.collect b))
    split at hByte <;> cases hByte <;>
      exact ⟨Nat.zero_le _, hBoth.idx, hBoth.len,
        hBoth.head, rfl⟩

/- The byte that was parsed and the bytes behind it. -/
theorem HeaderTaken.pass
    {s s₁ s₂ : InflStream}
    {k : Nat}
    (hByte : HeaderTaken s s₁ 0)
    (hRest : HeaderTaken s₁.passHeaderByte s₂ k)
    (hSome : s.nextIn ≠ []) :
    HeaderTaken s s₂ (k + 1) := by
  have hStrm := hByte.strm
  have hNextIn : s₁.nextIn = s.nextIn :=
    (congrArg InflStream.nextIn hStrm :)
  have hIdx := hByte.idx
  have hLe := hRest.le
  have hPos := List.length_pos_iff.mpr hSome
  simp only [InflStream.passHeaderByte, InflStream.advance,
    List.length_drop, hNextIn] at hLe
  refine ⟨by omega, ?_, hRest.len.trans hByte.len,
    hRest.head.trans hByte.head, ?_⟩
  · have hRestIdx := hRest.idx
    simp only [InflStream.passHeaderByte] at hRestIdx
    omega
  · rw [hRest.strm]
    simp only [InflStream.passHeaderByte, InflStream.advance]
    rw [hStrm]
    simp only [InflStream.advance, List.drop_drop,
      Nat.add_zero]
    congr 1
    · congr 1
      omega
    · omega

theorem HeaderTaken.passed
    {s s₁ : InflStream}
    (hByte : HeaderTaken s s₁ 0)
    (hSome : s.nextIn ≠ []) :
    HeaderTaken s s₁.passHeaderByte 1 :=
  hByte.pass
    ⟨Nat.zero_le _, rfl, rfl, rfl,
      by simp [InflStream.advance]⟩
    hSome

/- The loop takes bytes from the front of the input. -/
theorem remHeaderLoop_spec
    {bs : List UInt8}
    {s s' : InflStream}
    {rc : Rc}
    (hBytes : s.nextIn = bs)
    (hLoop : remHeaderLoop bs s = some (rc, s')) :
    (∃ k, HeaderTaken s s' k) ∧
      (rc = .ok ∨ rc = .errGzipHdr ∨ rc = .needDict) := by
  induction bs generalizing s with
  | nil =>
      cases hLoop
      exact ⟨⟨0, Nat.zero_le _, rfl, rfl, rfl,
        by simp [InflStream.advance]⟩, Or.inl rfl⟩
  | cons b rest ih =>
      unfold remHeaderLoop at hLoop
      cases hByte : inflateRemHeaderByte b s with
      | none =>
          rw [hByte] at hLoop
          cases hLoop
      | some result =>
          rcases result with ⟨hdrRc, s₁⟩
          have hTaken := inflateRemHeaderByte_keeps hByte
          have hSome : s.nextIn ≠ [] := by simp [hBytes]
          have hPassed := hTaken.passed hSome
          rw [hByte] at hLoop
          cases hdrRc with
          | ok =>
              cases hLoop
              exact ⟨⟨1, hPassed⟩, Or.inl rfl⟩
          | error =>
              cases hLoop
              exact ⟨⟨1, hPassed⟩, Or.inr (Or.inl rfl)⟩
          | zlibNeedDict =>
              cases hLoop
              exact ⟨⟨1, hPassed⟩, Or.inr (Or.inr rfl)⟩
          | needMoreData =>
              have hNextIn : s₁.nextIn = s.nextIn :=
                (congrArg InflStream.nextIn hTaken.strm :)
              have hBehind : s₁.passHeaderByte.nextIn = rest := by
                simp [InflStream.passHeaderByte,
                  InflStream.advance, hNextIn, hBytes]
              rcases ih hBehind hLoop with ⟨⟨k, hRest⟩, hRc⟩
              exact ⟨⟨k + 1, hTaken.pass hRest hSome⟩, hRc⟩

/-
  Removing the header takes `k` bytes, which `prefx_idx`
  counts, and is marked as prepared.
-/
theorem inflateFormatRemHeader_spec
    {flush : Flush}
    {s s' : InflStream}
    {rc : Rc}
    (hIdx : s.prefx.len = 0 → s.prefx.idx = 0)
    (hRemove :
      inflateFormatRemHeader flush s = some (rc, s')) :
    (∃ k,
      k ≤ s.nextIn.length ∧
      s'.prefx.idx = s.prefx.idx + k ∧
      (s'.prefx.len = 0 → s'.prefx.idx = 0) ∧
      s' =
        { s.advance k with
          prefx := s'.prefx
          dictAdler32 := s'.dictAdler32
          adler32 := s'.adler32
          havedict := s'.havedict
          dataType80 := s'.dataType80 }) ∧
      (rc = .ok ∨ rc = .errGzipHdr ∨ rc = .needDict) := by
  unfold inflateFormatRemHeader at hRemove
  by_cases hDefl : s.format = .defl
  · rw [if_pos hDefl] at hRemove
    cases hRemove
    exact ⟨⟨0, Nat.zero_le _, rfl, hIdx,
      by simp [InflStream.advance]⟩, Or.inl rfl⟩
  · rw [if_neg hDefl] at hRemove
    simp only at hRemove
    cases hLoop :
        remHeaderLoop s.nextIn (remHeaderPrepare s) with
    | none =>
        rw [hLoop] at hRemove
        cases hRemove
    | some result =>
        rcases result with ⟨rc₁, s₁⟩
        rw [hLoop] at hRemove
        have hPrepared :
            (remHeaderPrepare s).nextIn = s.nextIn ∧
            (remHeaderPrepare s).prefx.idx = s.prefx.idx ∧
            (remHeaderPrepare s).prefx.len ≠ 0 ∧
            remHeaderPrepare s =
              { s with
                prefx := (remHeaderPrepare s).prefx
                dataType80 := false } := by
          unfold remHeaderPrepare
          by_cases hLen : s.prefx.len = 0
          · rw [if_pos hLen]
            refine ⟨rfl, (hIdx hLen).symm, ?_, rfl⟩
            simp only
            split <;> decide
          · rw [if_neg hLen]
            exact ⟨rfl, rfl, hLen, rfl⟩
        rcases hPrepared with ⟨hNextIn, hIdx', hLen', hStrm⟩
        rcases remHeaderLoop_spec hNextIn hLoop with
          ⟨⟨k, hTaken⟩, hRc⟩
        have hIdx₁ := hTaken.idx
        have hLen₁ := hTaken.len
        have hStrm₁ := hTaken.strm
        rw [hStrm] at hStrm₁
        have hLe := hTaken.le
        rw [hNextIn] at hLe
        have hMarked : (s₁.prefx.len = 0 → s₁.prefx.idx = 0) :=
          fun hZero => absurd (hLen₁.symm.trans hZero) hLen'
        simp only at hRemove
        split at hRemove
        · cases hRemove
          refine ⟨⟨k, hLe, hIdx₁.trans (by rw [hIdx']),
            hMarked, ?_⟩, hRc⟩
          rw [hStrm₁]
          rfl
        · cases hRemove
          refine ⟨⟨k, hLe, hIdx₁.trans (by rw [hIdx']),
            hMarked, ?_⟩, hRc⟩
          rw [hStrm₁]
          rfl

------------------------------------------------------------
-- When a Header Is Done
------------------------------------------------------------

/- The states the ZLIB parser can be in. -/
def HeadState.ofZlib : HeadState → Bool
  | .headerStart => true
  | .zlibAdler => true
  | .headerDone => true
  | _ => false

/- A ZLIB stream is in a state of its own parser. -/
def ZlibState (s : InflStream) : Prop :=
  s.format = .zlib → s.prefx.headerState.ofZlib = true

theorem gzipHeaderLoop_ok
    {b : UInt8}
    {fuel : Nat}
    {p p' : Prefx}
    {state : HeadState}
    (hLoop :
      gzipHeaderLoop b fuel p state = some (.ok, p')) :
    p'.headerState = .headerDone := by
  induction fuel generalizing p state with
  | zero => cases hLoop
  | succ fuel ih =>
      unfold gzipHeaderLoop at hLoop
      by_cases hDone : state = .headerDone
      · rw [if_pos hDone] at hLoop
        unfold gzipHeaderEnd at hLoop
        cases hLoop
        rfl
      · rw [if_neg hDone] at hLoop
        cases hStep : gzipHeaderStep b p state with
        | none =>
            rw [hStep] at hLoop
            cases hLoop
        | some step =>
            rw [hStep] at hLoop
            cases step with
            | refuse p₁ => cases hLoop
            | moreData p₁ next =>
                unfold gzipHeaderEnd at hLoop
                cases hLoop
            | goOn p₁ next => exact ih hLoop

theorem inflateRemZlibHeader_state
    {p : Prefx}
    (hState : p.headerState.ofZlib = true) :
    (inflateRemZlibHeader p).prefx.headerState.ofZlib =
        true ∧
      ((inflateRemZlibHeader p).rc = .ok →
        (inflateRemZlibHeader p).prefx.headerState =
          .headerDone) := by
  unfold inflateRemZlibHeader zlibStartStep zlibAdlerStep
  simp only
  split
  · exact ⟨rfl, fun hRc => nomatch hRc⟩
  · split
    · rename_i hStart
      split_ifs
      · exact ⟨hState, fun hRc => nomatch hRc⟩
      · exact ⟨hState, fun hRc => nomatch hRc⟩
      · exact ⟨rfl, fun hRc => nomatch hRc⟩
      · exact ⟨rfl, fun _ => rfl⟩
      · exact ⟨rfl, fun hRc => nomatch hRc⟩
    · split_ifs
      · exact ⟨rfl, fun hRc => nomatch hRc⟩
      · exact ⟨rfl, fun hRc => nomatch hRc⟩
    · rename_i hStart hAdler
      refine ⟨hState, fun _ => ?_⟩
      simp only
      cases hIs : p.headerState <;>
        simp_all [HeadState.ofZlib]

/- A byte that completes the header leaves it done. -/
theorem inflateRemHeaderByte_state
    {b : UInt8}
    {s s' : InflStream}
    {rc : HdrRc}
    (hFormat : s.format ≠ .defl)
    (hState : ZlibState s)
    (hByte : inflateRemHeaderByte b s = some (rc, s')) :
    ZlibState s' ∧
      (rc = .ok → s'.prefx.headerState = .headerDone) := by
  unfold inflateRemHeaderByte at hByte
  simp only at hByte
  by_cases hGzip : s.format = .gzip
  · rw [if_pos hGzip] at hByte
    cases hParse :
        inflateRemGzipHeader b (s.prefx.collect b) with
    | none =>
        rw [hParse] at hByte
        cases hByte
    | some result =>
        rcases result with ⟨rc₁, p₁⟩
        rw [hParse] at hByte
        cases hByte
        refine ⟨fun hZlib => ?_, fun hRc => ?_⟩
        · exact absurd (hGzip.symm.trans hZlib) (by decide)
        · subst hRc
          unfold inflateRemGzipHeader at hParse
          split at hParse
          · cases hParse
          · exact gzipHeaderLoop_ok hParse
  · rw [if_neg hGzip] at hByte
    have hZlib : s.format = .zlib := by
      cases hKind : s.format with
      | defl => exact absurd hKind hFormat
      | gzip => exact absurd hKind hGzip
      | zlib => rfl
    have hCollect :
        (s.prefx.collect b).headerState =
          s.prefx.headerState := by
      unfold Prefx.collect
      split <;> rfl
    have hParsed :=
      inflateRemZlibHeader_state
        (p := s.prefx.collect b)
        (by rw [hCollect]; exact hState hZlib)
    split at hByte <;> cases hByte <;>
      exact ⟨fun _ => hParsed.1, hParsed.2⟩

theorem remHeaderLoop_state
    {bs : List UInt8}
    {s s' : InflStream}
    {rc : Rc}
    (hBytes : s.nextIn = bs)
    (hFormat : s.format ≠ .defl)
    (hState : ZlibState s)
    (hLoop : remHeaderLoop bs s = some (rc, s')) :
    ZlibState s' ∧
      (rc = .ok →
        s'.prefx.headerState = .headerDone ∨
          s'.nextIn = []) := by
  induction bs generalizing s with
  | nil =>
      cases hLoop
      exact ⟨hState, fun _ => Or.inr hBytes⟩
  | cons b rest ih =>
      unfold remHeaderLoop at hLoop
      cases hByte : inflateRemHeaderByte b s with
      | none =>
          rw [hByte] at hLoop
          cases hLoop
      | some result =>
          rcases result with ⟨hdrRc, s₁⟩
          have hTaken := inflateRemHeaderByte_keeps hByte
          rcases inflateRemHeaderByte_state hFormat hState
            hByte with ⟨hState₁, hOk⟩
          rw [hByte] at hLoop
          cases hdrRc with
          | ok =>
              cases hLoop
              exact ⟨hState₁, fun _ => Or.inl (hOk rfl)⟩
          | error =>
              cases hLoop
              exact ⟨hState₁, fun hRc => nomatch hRc⟩
          | zlibNeedDict =>
              cases hLoop
              exact ⟨hState₁, fun hRc => nomatch hRc⟩
          | needMoreData =>
              have hNextIn : s₁.nextIn = s.nextIn :=
                (congrArg InflStream.nextIn hTaken.strm :)
              have hSame : s₁.format = s.format :=
                (congrArg InflStream.format hTaken.strm :)
              have hBehind :
                  s₁.passHeaderByte.nextIn = rest := by
                simp [InflStream.passHeaderByte,
                  InflStream.advance, hNextIn, hBytes]
              have hFormat₁ :
                  s₁.passHeaderByte.format ≠ .defl := by
                show s₁.format ≠ .defl
                rw [hSame]
                exact hFormat
              exact ih hBehind hFormat₁ hState₁ hLoop

/-
  A header that was removed without an error is done, or all
  input was taken for it.
-/
theorem inflateFormatRemHeader_state
    {flush : Flush}
    {s s' : InflStream}
    {rc : Rc}
    (hState : ZlibState s)
    (hRemove :
      inflateFormatRemHeader flush s = some (rc, s')) :
    ZlibState s' ∧
      (rc = .ok →
        s.format = .defl ∨
          s'.prefx.headerState = .headerDone ∨
            s'.nextIn = []) ∧
      (s.format = .defl → s' = s) := by
  unfold inflateFormatRemHeader at hRemove
  by_cases hDefl : s.format = .defl
  · rw [if_pos hDefl] at hRemove
    cases hRemove
    exact ⟨hState, fun _ => Or.inl hDefl, fun _ => rfl⟩
  · rw [if_neg hDefl] at hRemove
    simp only at hRemove
    have hPrepared :
        (remHeaderPrepare s).nextIn = s.nextIn ∧
          (remHeaderPrepare s).format = s.format ∧
          (remHeaderPrepare s).prefx.headerState =
            s.prefx.headerState := by
      unfold remHeaderPrepare
      split <;> exact ⟨rfl, rfl, rfl⟩
    rcases hPrepared with ⟨hNextIn, hFormat, hSame⟩
    cases hLoop :
        remHeaderLoop s.nextIn (remHeaderPrepare s) with
    | none =>
        rw [hLoop] at hRemove
        cases hRemove
    | some result =>
        rcases result with ⟨rc₁, s₁⟩
        rw [hLoop] at hRemove
        have hState₀ : ZlibState (remHeaderPrepare s) := by
          unfold ZlibState
          rw [hFormat, hSame]
          exact hState
        rcases remHeaderLoop_state hNextIn
          (by rw [hFormat]; exact hDefl) hState₀ hLoop with
          ⟨hState₁, hOk⟩
        simp only at hRemove
        split at hRemove
        · cases hRemove
          exact ⟨hState₁, fun hRc => Or.inr (hOk hRc),
            fun hAbs => absurd hAbs hDefl⟩
        · cases hRemove
          exact ⟨hState₁, fun hRc => Or.inr (hOk hRc),
            fun hAbs => absurd hAbs hDefl⟩

end Zedc
