import GenWqe.Formats.HeaderBytes

/-
  What the GZIP header parser does with each optional field:
  reading a field leads to the check for the next one, and
  leaves the field in the registered header structure.

  Key definitions include:
    * `HeaderBuffer`
    * `Past`

  Main results:
    * `gzipBytes_string`
    * `gzipBytes_extra`
    * `gzipBytes_fixed`
-/

namespace Zedc

open ByteMem

------------------------------------------------------------
-- Single Bytes
------------------------------------------------------------

/- The parser is behind the fixed part, with these flags. -/
structure Past (p : Prefx) (flg : UInt8) : Prop where
  idx : 9 ≤ p.idx
  flg : p.bytes 3 = flg

theorem Past.next
    {p : Prefx} {flg : UInt8}
    (hPast : Past p flg) :
    Past p.next flg ∧ 10 ≤ p.next.idx :=
  ⟨⟨Nat.le_succ_of_le hPast.idx, hPast.flg⟩,
    Nat.succ_le_succ hPast.idx⟩

theorem Past.collect
    {p : Prefx} {flg : UInt8}
    (hPast : Past p flg)
    (b : UInt8) :
    Past (p.collect b) flg := by
  have hIdx := hPast.idx
  unfold Prefx.collect
  split
  · refine ⟨hIdx, ?_⟩
    change p.bytes.store p.idx [b] 3 = flg
    rw [store_outside _ (by omega)]
    exact hPast.flg
  · exact hPast

/- Behind the fixed part a byte goes to the loop. -/
theorem gzipBytes_past
    {p : Prefx}
    (hIdx : 10 ≤ p.idx)
    (b : UInt8)
    (rest : List UInt8) :
    gzipBytes (b :: rest) p =
      gzipResume rest
        (gzipHeaderLoop b 16 (p.collect b)
          p.headerState) := by
  have hKeep := (Prefx.collect_keeps b p).idx
  have hState :
      (p.collect b).headerState = p.headerState := by
    unfold Prefx.collect
    split <;> rfl
  rw [gzipBytes_cons]
  unfold inflateRemGzipHeader
  rw [if_neg (by omega), if_neg (by omega), hState]

/- A turn of the loop that waits for the next byte. -/
theorem gzipHeaderLoop_moreData
    {b : UInt8} {fuel : Nat} {p p' : Prefx}
    {state next : HeadState}
    (hState : state ≠ .headerDone)
    (hNext : next ≠ .headerDone)
    (hStep :
      gzipHeaderStep b p state =
        some (.moreData p' next)) :
    gzipHeaderLoop b (fuel + 1) p state =
      some (.needMoreData,
        { p' with headerState := next }) := by
  rw [gzipHeaderLoop, if_neg hState, hStep]
  simp only [gzipHeaderEnd, if_neg hNext]

/- A turn of the loop that goes on. -/
theorem gzipHeaderLoop_goOn
    {b : UInt8} {fuel : Nat} {p p' : Prefx}
    {state next : HeadState}
    (hState : state ≠ .headerDone)
    (hStep :
      gzipHeaderStep b p state = some (.goOn p' next)) :
    gzipHeaderLoop b (fuel + 1) p state =
      gzipHeaderLoop b fuel p' next := by
  rw [gzipHeaderLoop, if_neg hState, hStep]

theorem gzipHeaderLoop_refuse
    {b : UInt8} {fuel : Nat} {p p' : Prefx}
    {state : HeadState}
    (hState : state ≠ .headerDone)
    (hStep :
      gzipHeaderStep b p state = some (.refuse p')) :
    gzipHeaderLoop b (fuel + 1) p state =
      some (.error, p') := by
  rw [gzipHeaderLoop, if_neg hState, hStep]

------------------------------------------------------------
-- Buffers of the Header Structure
------------------------------------------------------------

/-
  A buffer of the registered header structure: its maximum,
  its contents, and how they are replaced.
-/
structure HeaderBuffer where
  max : GzedcHeader → UInt32
  buf : GzedcHeader → Option ByteMem
  setBuf : ByteMem → GzedcHeader → GzedcHeader
  buf_setBuf : ∀ m r, buf (setBuf m r) = some m
  max_setBuf : ∀ m r, max (setBuf m r) = max r
  setBuf_setBuf :
    ∀ m m' r, setBuf m (setBuf m' r) = setBuf m r

namespace HeaderBuffer

def extra : HeaderBuffer where
  max := fun r => r.extraMax
  buf := fun r => r.extra
  setBuf := fun m r => { r with extra := some m }
  buf_setBuf := fun _ _ => rfl
  max_setBuf := fun _ _ => rfl
  setBuf_setBuf := fun _ _ _ => rfl

def name : HeaderBuffer where
  max := fun r => r.nameMax
  buf := fun r => r.name
  setBuf := fun m r => { r with name := some m }
  buf_setBuf := fun _ _ => rfl
  max_setBuf := fun _ _ => rfl
  setBuf_setBuf := fun _ _ _ => rfl

def comment : HeaderBuffer where
  max := fun r => r.commMax
  buf := fun r => r.comment
  setBuf := fun m r => { r with comment := some m }
  buf_setBuf := fun _ _ => rfl
  max_setBuf := fun _ _ => rfl
  setBuf_setBuf := fun _ _ _ => rfl

variable (B : HeaderBuffer)

/- The bytes `bs` are put into the buffer, from `i` on. -/
def put
    (i : Nat)
    (bs : List UInt8)
    (r : GzedcHeader) : GzedcHeader :=
  B.setBuf (((B.buf r).getD (fun _ => 0)).store i bs) r

/- The parser's state behind a byte that was stored. -/
def stored
    (i : Nat) (b : UInt8) (k : Nat)
    (p : Prefx) : Prefx :=
  { p with
    gzipHead := p.gzipHead.map (B.put i [b])
    gzipHeaderIdx := k }

/- The store of one byte, as the parser does it. -/
def store (b : UInt8) (p : Prefx) : Option (Bool × Prefx) :=
  storeHeaderByte B.max B.buf B.setBuf b p

/- There is room for `n` bytes, for the signed comparison. -/
def Room (n : Nat) (g : Option GzedcHeader) : Prop :=
  ∀ r, g = some r →
    B.buf r ≠ none ∧
      (n : Int) ≤ asSigned 32 (B.max r).toNat

theorem put_put
    (i : Nat)
    (as bs : List UInt8)
    (r : GzedcHeader) :
    B.put (i + as.length) bs (B.put i as r) =
      B.put i (as ++ bs) r := by
  unfold put
  rw [B.buf_setBuf, Option.getD_some, B.setBuf_setBuf,
    store_store_append]

theorem room_put
    {i n : Nat}
    {bs : List UInt8}
    {g : Option GzedcHeader}
    (hRoom : B.Room n g) :
    B.Room n (g.map (B.put i bs)) := by
  intro r' hSome
  rcases Option.map_eq_some_iff.mp hSome with ⟨r, hG, rfl⟩
  unfold put
  rw [B.buf_setBuf, B.max_setBuf]
  exact ⟨fun h => (nomatch h), (hRoom r hG).2⟩

theorem stored_none
    {i : Nat} {b : UInt8} {p : Prefx}
    (hHead : p.gzipHead = none) :
    B.stored i b p.gzipHeaderIdx p = p := by
  unfold stored
  rw [hHead, Option.map_none, ← hHead]

/- Storing a byte where there is room. -/
theorem store_room
    {i : Nat} {p : Prefx}
    (b : UInt8)
    (hIdx : p.gzipHead = none ∨ p.gzipHeaderIdx = i)
    (hRoom : B.Room (i + 1) p.gzipHead) :
    ∃ k,
      B.store b p = some (true, B.stored i b k p) ∧
        (p.gzipHead = none ∨ k = i + 1) := by
  unfold store storeHeaderByte
  cases hHead : p.gzipHead with
  | none =>
      exact ⟨p.gzipHeaderIdx, by rw [B.stored_none hHead],
        Or.inl rfl⟩
  | some r =>
      rcases hRoom r hHead with ⟨hBuf, hMax⟩
      have hAt : p.gzipHeaderIdx = i := by
        rcases hIdx with hNone | hAt
        · rw [hHead] at hNone
          cases hNone
        · exact hAt
      rcases Option.ne_none_iff_exists'.mp hBuf with
        ⟨m, hM⟩
      refine ⟨i + 1, ?_, Or.inr rfl⟩
      simp only
      rw [if_pos (by rw [hAt]; push_cast at hMax; omega), hM,
        hAt]
      simp only [stored, hHead, Option.map_some, put, hM,
        Option.getD_some]

end HeaderBuffer

------------------------------------------------------------
-- Strings
------------------------------------------------------------

/-
  A string field: the state that checks its flag, the state
  that stores its bytes up to a zero byte, and the check that
  is next.
-/
structure StringState (B : HeaderBuffer) where
  check : HeadState
  mask : UInt8
  state : HeadState
  next : HeadState
  check_open : check ≠ .headerDone
  state_open : state ≠ .headerDone
  check_step :
    ∀ b p,
      gzipHeaderStep b p check =
        if p.bytes 3 &&& mask ≠ 0 then
          some (.moreData { p with gzipHeaderIdx := 0 } state)
        else some (.goOn p next)
  step :
    ∀ b p,
      gzipHeaderStep b p state =
        if b = 0 then HdrStep.stored (B.store b p) false next p
        else HdrStep.stored (B.store b p) true state p

def nameState : StringState HeaderBuffer.name where
  check := .flagsCheckFname
  mask := 0x08
  state := .flagsGetFname
  next := .flagsCheckFcomment
  check_open := by decide
  state_open := by decide
  check_step := fun _ _ => rfl
  step := fun _ _ => rfl

def commentState : StringState HeaderBuffer.comment where
  check := .flagsCheckFcomment
  mask := 0x10
  state := .flagsGetFcomment
  next := .flagsCheckFhcrc
  check_open := by decide
  state_open := by decide
  check_step := fun _ _ => rfl
  step := fun _ _ => rfl

theorem Prefx.gzipHead_collect (b : UInt8) (p : Prefx) :
    (p.collect b).gzipHead = p.gzipHead ∧
      (p.collect b).gzipHeaderIdx = p.gzipHeaderIdx ∧
      (p.collect b).xlen = p.xlen := by
  unfold Prefx.collect
  split <;> exact ⟨rfl, rfl, rfl⟩

/- A string is read up to its zero byte. -/
theorem gzipBytes_string
    {B : HeaderBuffer}
    (S : StringState B)
    {str rest : List UInt8}
    (hZero : (0 : UInt8) ∉ str)
    {p : Prefx} {flg : UInt8} {i : Nat}
    (hPast : Past p flg)
    (hTen : 10 ≤ p.idx)
    (hState : p.headerState = S.state)
    (hIdx : p.gzipHead = none ∨ p.gzipHeaderIdx = i)
    (hRoom : B.Room (i + str.length + 1) p.gzipHead) :
    ∃ q,
      gzipBytes (str ++ 0 :: rest) p =
          gzipResume rest (gzipHeaderLoop 0 15 q S.next) ∧
        Past q flg ∧
        q.gzipHead =
          p.gzipHead.map (B.put i (str ++ [0])) := by
  induction str generalizing p i with
  | nil =>
      rcases p.gzipHead_collect 0 with ⟨hHead, hAt, -⟩
      have hStore :=
        B.store_room (i := i) (p := p.collect 0) 0
          (by rw [hHead, hAt]; exact hIdx)
          (by rw [hHead]; exact hRoom)
      rcases hStore with ⟨k, hStore, -⟩
      have hStep :
          gzipHeaderStep 0 (p.collect 0) S.state =
            some (.goOn (B.stored i 0 k (p.collect 0))
              S.next) := by
        rw [S.step, if_pos rfl, hStore]
        rfl
      refine ⟨B.stored i 0 k (p.collect 0), ?_, ?_, ?_⟩
      · rw [List.nil_append, gzipBytes_past hTen, hState,
          gzipHeaderLoop_goOn S.state_open hStep]
      · exact ⟨(hPast.collect 0).idx, (hPast.collect 0).flg⟩
      · change (p.collect 0).gzipHead.map _ = _
        rw [hHead]
        rfl
  | cons b str ih =>
      have hB : b ≠ 0 := fun h =>
        hZero (by rw [h]; exact List.mem_cons_self)
      have hRest : (0 : UInt8) ∉ str := fun h =>
        hZero (List.mem_cons_of_mem _ h)
      rw [List.length_cons] at hRoom
      rcases p.gzipHead_collect b with ⟨hHead, hAt, -⟩
      have hOne : B.Room (i + 1) p.gzipHead := by
        intro r hR
        rcases hRoom r hR with ⟨hBuf, hMax⟩
        refine ⟨hBuf, ?_⟩
        push_cast at hMax ⊢
        omega
      have hStore :=
        B.store_room (i := i) (p := p.collect b) b
          (by rw [hHead, hAt]; exact hIdx)
          (by rw [hHead]; exact hOne)
      rcases hStore with ⟨k, hStore, hK⟩
      have hStep :
          gzipHeaderStep b (p.collect b) S.state =
            some (.moreData (B.stored i b k (p.collect b))
              S.state) := by
        rw [S.step, if_neg hB, hStore]
        rfl
      rw [List.cons_append, gzipBytes_past hTen, hState,
        gzipHeaderLoop_moreData S.state_open S.state_open
          hStep]
      have hMid :
          Past
            { B.stored i b k (p.collect b) with
              headerState := S.state } flg :=
        ⟨(hPast.collect b).idx, (hPast.collect b).flg⟩
      have hGo :=
        ih (i := i + 1) hRest hMid.next.1 hMid.next.2 rfl
          (by
            rcases hK with hNone | hK
            · rw [hHead] at hNone
              refine Or.inl ?_
              change (p.collect b).gzipHead.map _ = none
              rw [hHead, hNone]
              rfl
            · exact Or.inr hK)
          (by
            change B.Room (i + 1 + str.length + 1)
              ((p.collect b).gzipHead.map _)
            rw [hHead]
            refine B.room_put ?_
            have hSame :
                i + 1 + str.length + 1 =
                  i + (str.length + 1) + 1 := by
              omega
            rw [hSame]
            exact hRoom)
      rcases hGo with ⟨q, hGo, hQ, hQHead⟩
      refine ⟨q, hGo, hQ, hQHead.trans ?_⟩
      change Option.map _ ((p.collect b).gzipHead.map _) = _
      rw [hHead, Option.map_map]
      congr 1
      funext r
      exact B.put_put i [b] (str ++ [0]) r

/- A check for a field that is there waits for its bytes. -/
theorem StringState.check_some
    {B : HeaderBuffer}
    (S : StringState B)
    {p : Prefx} {flg : UInt8}
    (hPast : Past p flg)
    (hFlag : flg &&& S.mask ≠ 0)
    (b : UInt8) (fuel : Nat) (rest : List UInt8) :
    gzipResume rest
        (gzipHeaderLoop b (fuel + 1) p S.check) =
      gzipBytes rest
        { p with
          gzipHeaderIdx := 0
          headerState := S.state
          idx := p.idx + 1 } := by
  have hStep :
      gzipHeaderStep b p S.check =
        some (.moreData { p with gzipHeaderIdx := 0 }
          S.state) := by
    rw [S.check_step, hPast.flg, if_pos hFlag]
  rw [gzipHeaderLoop_moreData S.check_open S.state_open
    hStep]
  rfl

theorem StringState.check_none
    {B : HeaderBuffer}
    (S : StringState B)
    {p : Prefx} {flg : UInt8}
    (hPast : Past p flg)
    (hFlag : ¬ flg &&& S.mask ≠ 0)
    (b : UInt8) (fuel : Nat) :
    gzipHeaderLoop b (fuel + 1) p S.check =
      gzipHeaderLoop b fuel p S.next := by
  have hStep :
      gzipHeaderStep b p S.check =
        some (.goOn p S.next) := by
    rw [S.check_step, hPast.flg, if_neg hFlag]
  exact gzipHeaderLoop_goOn S.check_open hStep

/- A string that is there is read into its buffer. -/
theorem StringState.pass
    {B : HeaderBuffer}
    (S : StringState B)
    {str rest : List UInt8}
    (hZero : (0 : UInt8) ∉ str)
    {p : Prefx} {flg : UInt8}
    (hPast : Past p flg)
    (hFlag : flg &&& S.mask ≠ 0)
    (hRoom : B.Room (str.length + 1) p.gzipHead)
    (b : UInt8) (fuel : Nat) :
    ∃ q,
      gzipResume (str ++ 0 :: rest)
          (gzipHeaderLoop b (fuel + 1) p S.check) =
        gzipResume rest (gzipHeaderLoop 0 15 q S.next) ∧
      Past q flg ∧
      q.gzipHead = p.gzipHead.map (B.put 0 (str ++ [0])) := by
  rw [S.check_some hPast hFlag]
  exact
    gzipBytes_string S (i := 0) hZero
      ⟨Nat.le_succ_of_le hPast.idx, hPast.flg⟩
      (Nat.succ_le_succ hPast.idx) rfl (Or.inr rfl)
      (by rw [Nat.zero_add]; exact hRoom)

/-
  Where the comparison with the maximum fails at once, the
  first byte of the string is refused.
-/
theorem StringState.refused
    {B : HeaderBuffer}
    (S : StringState B)
    {p : Prefx} {flg : UInt8} {r : GzedcHeader}
    (hPast : Past p flg)
    (hFlag : flg &&& S.mask ≠ 0)
    (hHead : p.gzipHead = some r)
    (hMax : asSigned 32 (B.max r).toNat ≤ 0)
    (b c : UInt8) (fuel : Nat) (rest : List UInt8)
    {out : HdrRc × Prefx × List UInt8}
    (hOut :
      gzipResume (c :: rest)
          (gzipHeaderLoop b (fuel + 1) p S.check) =
        some out) :
    out.1 = .error := by
  rw [S.check_some hPast hFlag, gzipBytes_past
    (Nat.succ_le_succ hPast.idx)] at hOut
  have hRefuse :
      ∀ q : Prefx,
        q.gzipHead = some r → q.gzipHeaderIdx = 0 →
          B.store c q = some (false, q) := by
    intro q hQ hZero
    unfold HeaderBuffer.store storeHeaderByte
    rw [hQ]
    simp only
    rw [hZero, if_neg (by push_cast; omega)]
  have hStore :=
    hRefuse
      (Prefx.collect c
        { p with
          gzipHeaderIdx := 0
          headerState := S.state
          idx := p.idx + 1 })
      ((Prefx.gzipHead_collect c _).1.trans hHead)
      (Prefx.gzipHead_collect c _).2.1
  have hStep :
      gzipHeaderStep c
          (Prefx.collect c
            { p with
              gzipHeaderIdx := 0
              headerState := S.state
              idx := p.idx + 1 }) S.state =
        some (.refuse
          (Prefx.collect c
            { p with
              gzipHeaderIdx := 0
              headerState := S.state
              idx := p.idx + 1 })) := by
    rw [S.step, hStore]
    split <;> rfl
  rw [gzipHeaderLoop_refuse S.state_open hStep] at hOut
  cases hOut
  rfl

------------------------------------------------------------
-- The Extra Field
------------------------------------------------------------

/- One more byte of the extra field is to come. -/
def Prefx.countExtra (p : Prefx) : Prefx :=
  { p with xlen := p.xlen - 1 }

theorem gzipHeaderStep_extra
    (b : UInt8)
    (p : Prefx) :
    gzipHeaderStep b p .flagsGetExtra =
      if p.xlen = 1 then
        HdrStep.stored (HeaderBuffer.extra.store b p) false
          .flagsCheckFname p
      else
        HdrStep.stored
          (HeaderBuffer.extra.store b p.countExtra) true
          .flagsGetExtra p.countExtra := rfl

theorem UInt16.toNat_sub_one
    {n : UInt16}
    (hPos : n.toNat ≠ 0) :
    (n - 1).toNat = n.toNat - 1 := by
  rw [UInt16.toNat_sub_of_le]
  · rfl
  · exact UInt16.le_iff_toNat_le.mpr (by
      change 1 ≤ n.toNat
      omega)

/- An extra field of the length in `xlen` is read. -/
theorem gzipBytes_extra
    {bytes rest : List UInt8}
    (hSome : bytes ≠ [])
    {p : Prefx} {flg : UInt8} {i : Nat}
    (hPast : Past p flg)
    (hTen : 10 ≤ p.idx)
    (hState : p.headerState = .flagsGetExtra)
    (hXlen : p.xlen.toNat = bytes.length)
    (hIdx : p.gzipHead = none ∨ p.gzipHeaderIdx = i)
    (hRoom :
      HeaderBuffer.extra.Room (i + bytes.length)
        p.gzipHead) :
    ∃ b q,
      gzipBytes (bytes ++ rest) p =
          gzipResume rest
            (gzipHeaderLoop b 15 q .flagsCheckFname) ∧
        Past q flg ∧
        q.gzipHead =
          p.gzipHead.map (HeaderBuffer.extra.put i bytes) := by
  induction bytes generalizing p i with
  | nil => exact absurd rfl hSome
  | cons b bytes ih =>
      rw [List.length_cons] at hXlen hRoom
      rcases p.gzipHead_collect b with ⟨hHead, hAt, hCount⟩
      have hOne :
          HeaderBuffer.extra.Room (i + 1) p.gzipHead := by
        intro r hR
        rcases hRoom r hR with ⟨hBuf, hMax⟩
        refine ⟨hBuf, ?_⟩
        push_cast at hMax ⊢
        omega
      cases bytes with
      | nil =>
          have hLast : (p.collect b).xlen = 1 := by
            rw [hCount]
            exact UInt16.toNat_inj.mp hXlen
          have hStore :=
            HeaderBuffer.extra.store_room (i := i)
              (p := p.collect b) b
              (by rw [hHead, hAt]; exact hIdx)
              (by rw [hHead]; exact hOne)
          rcases hStore with ⟨k, hStore, -⟩
          have hStep :
              gzipHeaderStep b (p.collect b)
                  .flagsGetExtra =
                some (.goOn
                  (HeaderBuffer.extra.stored i b k
                    (p.collect b)) .flagsCheckFname) := by
            rw [gzipHeaderStep_extra, if_pos hLast, hStore]
            rfl
          refine ⟨b,
            HeaderBuffer.extra.stored i b k (p.collect b),
            ?_, ?_, ?_⟩
          · rw [List.cons_append, List.nil_append,
              gzipBytes_past hTen, hState,
              gzipHeaderLoop_goOn (by decide) hStep]
          · exact ⟨(hPast.collect b).idx,
              (hPast.collect b).flg⟩
          · change (p.collect b).gzipHead.map _ = _
            rw [hHead]
      | cons b' bytes =>
          rw [List.length_cons] at hXlen hRoom
          have hMore : (p.collect b).xlen ≠ 1 := by
            rw [hCount]
            intro hEq
            rw [hEq] at hXlen
            change 1 = _ at hXlen
            omega
          have hStore :=
            HeaderBuffer.extra.store_room (i := i)
              (p := (p.collect b).countExtra) b
              (by
                change (p.collect b).gzipHead = none ∨
                  (p.collect b).gzipHeaderIdx = i
                rw [hHead, hAt]
                exact hIdx)
              (by
                change HeaderBuffer.extra.Room (i + 1)
                  (p.collect b).gzipHead
                rw [hHead]
                exact hOne)
          rcases hStore with ⟨k, hStore, hK⟩
          have hStep :
              gzipHeaderStep b (p.collect b)
                  .flagsGetExtra =
                some (.moreData
                  (HeaderBuffer.extra.stored i b k
                    (p.collect b).countExtra)
                  .flagsGetExtra) := by
            rw [gzipHeaderStep_extra, if_neg hMore, hStore]
            rfl
          rw [List.cons_append, gzipBytes_past hTen, hState,
            gzipHeaderLoop_moreData (by decide) (by decide)
              hStep]
          have hMid :
              Past
                { HeaderBuffer.extra.stored i b k
                    (p.collect b).countExtra with
                  headerState := .flagsGetExtra } flg :=
            ⟨(hPast.collect b).idx, (hPast.collect b).flg⟩
          have hGo :=
            ih (i := i + 1) (List.cons_ne_nil _ _)
              hMid.next.1 hMid.next.2 rfl
              (by
                change ((p.collect b).xlen - 1).toNat = _
                rw [hCount,
                  UInt16.toNat_sub_one (by omega), hXlen,
                  List.length_cons]
                rfl)
              (by
                rcases hK with hNone | hK
                · change (p.collect b).gzipHead = none
                    at hNone
                  rw [hHead] at hNone
                  refine Or.inl ?_
                  change (p.collect b).gzipHead.map _ = none
                  rw [hHead, hNone]
                  rfl
                · exact Or.inr hK)
              (by
                change HeaderBuffer.extra.Room
                  (i + 1 + (b' :: bytes).length)
                  ((p.collect b).gzipHead.map _)
                rw [hHead]
                refine HeaderBuffer.extra.room_put ?_
                have hSame :
                    i + 1 + (b' :: bytes).length =
                      i + (bytes.length + 1 + 1) := by
                  rw [List.length_cons]
                  omega
                rw [hSame]
                exact hRoom)
          rcases hGo with ⟨b'', q, hGo, hQ, hQHead⟩
          refine ⟨b'', q, hGo, hQ, hQHead.trans ?_⟩
          change Option.map _ ((p.collect b).gzipHead.map _) =
            _
          rw [hHead, Option.map_map]
          congr 1
          funext r
          exact HeaderBuffer.extra.put_put i [b] _ r

------------------------------------------------------------
-- An Extra Field Without Bytes
------------------------------------------------------------

/- The bytes of extra data that `xlen` stands for. -/
def extraCount (xlen : UInt16) : Nat :=
  if xlen = 0 then 2 ^ 16 else xlen.toNat

/-
  While the extra field is not through, the header is not
  accepted: zero stands for 65536 bytes.
-/
theorem gzipBytes_in_extra
    {bytes rest : List UInt8}
    {p p' : Prefx} {rc : HdrRc}
    (hTen : 10 ≤ p.idx)
    (hState : p.headerState = .flagsGetExtra)
    (hShort : bytes.length < extraCount p.xlen)
    (hBytes : gzipBytes bytes p = some (rc, p', rest)) :
    rc ≠ .ok := by
  induction bytes generalizing p with
  | nil =>
      cases hBytes
      exact fun h => nomatch h
  | cons b bytes ih =>
      rw [List.length_cons] at hShort
      rcases p.gzipHead_collect b with ⟨-, -, hCount⟩
      have hMore : (p.collect b).xlen ≠ 1 := by
        rw [hCount]
        intro hEq
        rw [hEq] at hShort
        change bytes.length + 1 < 1 at hShort
        omega
      have hIdx :
          10 ≤ (p.collect b).countExtra.next.idx := by
        have hKeep := (Prefx.collect_keeps b p).idx
        change 10 ≤ (p.collect b).idx + 1
        omega
      rw [gzipBytes_past hTen, hState] at hBytes
      cases hStore :
          HeaderBuffer.extra.store b
            (p.collect b).countExtra with
      | none =>
          have hStep :
              gzipHeaderStep b (p.collect b)
                .flagsGetExtra = none := by
            rw [gzipHeaderStep_extra, if_neg hMore, hStore]
            rfl
          rw [gzipHeaderLoop, if_neg (by decide), hStep]
            at hBytes
          cases hBytes
      | some out =>
          rcases out with ⟨ok, q⟩
          cases ok with
          | false =>
              have hStep :
                  gzipHeaderStep b (p.collect b)
                      .flagsGetExtra =
                    some (.refuse
                      (p.collect b).countExtra) := by
                rw [gzipHeaderStep_extra, if_neg hMore,
                  hStore]
                rfl
              rw [gzipHeaderLoop_refuse (by decide) hStep]
                at hBytes
              cases hBytes
              exact fun h => nomatch h
          | true =>
              have hStep :
                  gzipHeaderStep b (p.collect b)
                      .flagsGetExtra =
                    some (.moreData q .flagsGetExtra) := by
                rw [gzipHeaderStep_extra, if_neg hMore,
                  hStore]
                rfl
              rw [gzipHeaderLoop_moreData (by decide)
                (by decide) hStep] at hBytes
              have hKept :
                  q.idx = (p.collect b).idx ∧
                    q.xlen = p.xlen - 1 := by
                unfold HeaderBuffer.store storeHeaderByte
                  at hStore
                rw [← hCount]
                split at hStore
                · cases hStore
                  exact ⟨rfl, rfl⟩
                · split at hStore
                  · split at hStore
                    · cases hStore
                    · cases hStore
                      exact ⟨rfl, rfl⟩
                  · cases hStore
              refine ih ?_ rfl ?_ hBytes
              · change 10 ≤ q.idx + 1
                rw [hKept.1]
                exact hIdx
              · change bytes.length < extraCount q.xlen
                rw [hKept.2]
                unfold extraCount at *
                by_cases hZero : p.xlen = 0
                · rw [if_pos hZero] at hShort
                  rw [hZero, if_neg (by decide)]
                  change bytes.length < 65535
                  omega
                · rw [if_neg hZero] at hShort
                  have hPos : p.xlen.toNat ≠ 0 := fun h =>
                    hZero (UInt16.toNat_inj.mp h)
                  have hSub := UInt16.toNat_sub_one hPos
                  have hLt := p.xlen.toNat_lt
                  split
                  · omega
                  · omega

------------------------------------------------------------
-- The Length of the Extra Field
------------------------------------------------------------

/- The length is read and kept. -/
def setExtraLen
    (n : UInt16)
    (r : GzedcHeader) : GzedcHeader :=
  { r with extraLen := n }

theorem gzipResume_extraLen
    {p : Prefx} {flg : UInt8}
    (hPast : Past p flg)
    (hFlag : flg &&& 0x04 ≠ 0)
    {n : Nat}
    (hLen : n < 256)
    (b : UInt8) (fuel : Nat) (rest : List UInt8) :
    ∃ q,
      gzipResume
          (UInt8.ofNat n :: UInt8.ofNat (n >>> 8) :: rest)
          (gzipHeaderLoop b (fuel + 1) p
            .flagsCheckExtra) =
        gzipBytes rest q ∧
      Past q flg ∧ 10 ≤ q.idx ∧
      q.headerState = .flagsGetExtra ∧
      q.xlen.toNat = n ∧ q.gzipHeaderIdx = 0 ∧
      q.gzipHead =
        p.gzipHead.map (setExtraLen (UInt16.ofNat n)) := by
  have hIdx := hPast.idx
  have hFirst :
      gzipHeaderStep b p .flagsCheckExtra =
        some (.moreData p .flagsGetExtraLen1) := by
    simp only [gzipHeaderStep]
    rw [hPast.flg, if_pos hFlag]
  have hHigh : n >>> 8 = 0 := by
    rw [Nat.shiftRight_eq_div_pow]
    exact Nat.div_eq_of_lt hLen
  have hXlen :
      (UInt8.ofNat n).toUInt16 |||
          (UInt8.ofNat (n >>> 8)).toUInt16 <<< 8 =
        UInt16.ofNat n := by
    rw [hHigh]
    apply UInt16.toNat_inj.mp
    simp
    omega
  rw [gzipHeaderLoop_moreData (by decide) (by decide) hFirst]
  let p₁ : Prefx :=
    ({ p with headerState := .flagsGetExtraLen1 } :
      Prefx).next
  have hPast₁ : Past p₁ flg :=
    ⟨Nat.le_succ_of_le hIdx, hPast.flg⟩
  have hTen₁ : 10 ≤ p₁.idx := Nat.succ_le_succ hIdx
  change ∃ q, gzipBytes _ p₁ = _ ∧ _
  rw [gzipBytes_past hTen₁]
  let lo := UInt8.ofNat n
  let p₂ : Prefx :=
    ({ p₁.collect lo with
      xlen := lo.toUInt16
      gzipHeaderIdx := 0
      headerState := .flagsGetExtraLen2 } : Prefx).next
  have hCol := hPast₁.collect lo
  have hPast₂ : Past p₂ flg :=
    ⟨Nat.le_succ_of_le hCol.idx, hCol.flg⟩
  have hTen₂ : 10 ≤ p₂.idx := Nat.succ_le_succ hCol.idx
  change ∃ q,
    gzipResume _
      (gzipHeaderLoop lo 16 (p₁.collect lo)
        .flagsGetExtraLen1) = _ ∧ _
  rw [gzipHeaderLoop_moreData (by decide) (by decide) rfl]
  change ∃ q, gzipBytes _ p₂ = _ ∧ _
  rw [gzipBytes_past hTen₂]
  let hi := UInt8.ofNat (n >>> 8)
  have hCol₂ := hPast₂.collect hi
  rcases p₂.gzipHead_collect hi with ⟨hHead₂, hAt₂, hXlen₂⟩
  rcases p₁.gzipHead_collect lo with ⟨hHead₁, -, -⟩
  change ∃ q,
    gzipResume _
      (gzipHeaderLoop hi 16 (p₂.collect hi)
        .flagsGetExtraLen2) = _ ∧ _
  rw [gzipHeaderLoop_moreData (by decide) (by decide) rfl]
  have hX :
      (p₂.collect hi).xlen ||| hi.toUInt16 <<< 8 =
        UInt16.ofNat n := by
    rw [hXlen₂]
    exact hXlen
  refine ⟨_, rfl, ⟨Nat.le_succ_of_le hCol₂.idx, hCol₂.flg⟩,
    Nat.succ_le_succ hCol₂.idx, rfl, ?_, hAt₂, ?_⟩
  · change ((p₂.collect hi).xlen |||
      hi.toUInt16 <<< 8).toNat = n
    rw [hX, UInt16.toNat_ofNat']
    exact Nat.mod_eq_of_lt (by omega)
  · change (p₂.collect hi).gzipHead.map (fun gzH =>
      { gzH with
        extraLen := (p₂.collect hi).xlen |||
          hi.toUInt16 <<< 8 }) = _
    rw [hX, hHead₂]
    change (p₁.collect lo).gzipHead.map _ = _
    rw [hHead₁]
    rfl

/-
  Where the comparison with the maximum fails at once, the
  first byte of the extra field is refused.
-/
theorem gzipBytes_extra_refused
    {p : Prefx} {r : GzedcHeader}
    (hTen : 10 ≤ p.idx)
    (hState : p.headerState = .flagsGetExtra)
    (hZero : p.gzipHeaderIdx = 0)
    (hHead : p.gzipHead = some r)
    (hMax : asSigned 32 r.extraMax.toNat ≤ 0)
    (c : UInt8) (rest : List UInt8)
    {out : HdrRc × Prefx × List UInt8}
    (hOut : gzipBytes (c :: rest) p = some out) :
    out.1 = .error := by
  rcases p.gzipHead_collect c with ⟨hHeadC, hAtC, -⟩
  have hRefuse :
      ∀ q : Prefx,
        q.gzipHead = some r → q.gzipHeaderIdx = 0 →
          HeaderBuffer.extra.store c q =
            some (false, q) := by
    intro q hQ hAt
    unfold HeaderBuffer.store storeHeaderByte
    rw [hQ]
    simp only
    rw [hAt, if_neg]
    change ¬ ((0 : Nat) : Int) <
      asSigned 32 r.extraMax.toNat
    push_cast
    omega
  rw [gzipBytes_past hTen, hState] at hOut
  have hStep :
      ∃ q,
        gzipHeaderStep c (p.collect c) .flagsGetExtra =
          some (.refuse q) := by
    rw [gzipHeaderStep_extra]
    split
    · rw [hRefuse _ (hHeadC.trans hHead) (hAtC.trans hZero)]
      exact ⟨_, rfl⟩
    · rw [hRefuse (p.collect c).countExtra
        (hHeadC.trans hHead) (hAtC.trans hZero)]
      exact ⟨_, rfl⟩
  rcases hStep with ⟨q, hStep⟩
  rw [gzipHeaderLoop_refuse (by decide) hStep] at hOut
  cases hOut
  rfl

/- A field that is not there is passed over. -/
theorem gzipHeaderLoop_noExtra
    {p : Prefx} {flg : UInt8}
    (hPast : Past p flg)
    (hFlag : ¬ flg &&& 0x04 ≠ 0)
    (b : UInt8) (fuel : Nat) :
    gzipHeaderLoop b (fuel + 1) p .flagsCheckExtra =
      gzipHeaderLoop b fuel p .flagsCheckFname := by
  have hStep :
      gzipHeaderStep b p .flagsCheckExtra =
        some (.goOn p .flagsCheckFname) := by
    simp only [gzipHeaderStep]
    rw [hPast.flg, if_neg hFlag]
  exact gzipHeaderLoop_goOn (by decide) hStep

------------------------------------------------------------
-- The Ends of the Header
------------------------------------------------------------

/- The header structure when the header is done. -/
def finishHead
    (flg : UInt8)
    (r : GzedcHeader) : GzedcHeader :=
  { r with
    text := if flg &&& 0x01 ≠ 0 then true else r.text
    done := true }

theorem gzipHeaderLoop_done
    (b : UInt8) (fuel : Nat) (p : Prefx) :
    gzipHeaderLoop b (fuel + 1) p .headerDone =
      some (.ok,
        { p with
          headerState := .headerDone
          gzipHead := p.gzipHead.map fun r =>
            { r with done := true } }) := rfl

/- The last check sets the text flag. -/
theorem gzipHeaderLoop_ftext
    {p : Prefx} {flg : UInt8}
    (hPast : Past p flg)
    (b : UInt8) (fuel : Nat) :
    gzipHeaderLoop b (fuel + 2) p .flagsCheckFtext =
      some (.ok,
        { p with
          headerState := .headerDone
          gzipHead := p.gzipHead.map (finishHead flg) }) := by
  rw [gzipHeaderLoop_goOn (by decide) rfl,
    gzipHeaderLoop_done, hPast.flg]
  by_cases hText : flg &&& 0x01 ≠ 0
  · have hFinish :
        finishHead flg =
          fun r => { r with text := true, done := true } := by
      funext r
      unfold finishHead
      rw [if_pos hText]
    rw [if_pos hText, hFinish]
    simp only [Prefx.setHead, Option.map_map]
    rfl
  · have hFinish :
        finishHead flg = fun r => { r with done := true } := by
      funext r
      unfold finishHead
      rw [if_neg hText]
    rw [if_neg hText, hFinish]

/- The check sum of the header is passed over. -/
theorem gzipResume_fhcrc
    {p : Prefx} {flg : UInt8}
    (hPast : Past p flg)
    (b : UInt8) (fuel : Nat) (rest : List UInt8) :
    ∃ q,
      gzipResume
          ((if flg &&& 0x02 ≠ 0 then [0xde, 0xef]
            else []) ++ rest)
          (gzipHeaderLoop b (fuel + 3) p .flagsCheckFhcrc) =
        some (.ok, q, rest) ∧
      q.gzipHead = p.gzipHead.map (finishHead flg) := by
  by_cases hHcrc : flg &&& 0x02 ≠ 0
  · have hFirst :
        gzipHeaderStep b p .flagsCheckFhcrc =
          some (.moreData p .flagsGetFhcrc1) := by
      simp only [gzipHeaderStep]
      rw [hPast.flg, if_pos hHcrc]
    rw [if_pos hHcrc, gzipHeaderLoop_moreData (by decide)
      (by decide) hFirst]
    let p₁ : Prefx :=
      ({ p with headerState := .flagsGetFhcrc1 } :
        Prefx).next
    have hTen₁ : 10 ≤ p₁.idx := Nat.succ_le_succ hPast.idx
    have hPast₁ : Past p₁ flg :=
      ⟨Nat.le_succ_of_le hPast.idx, hPast.flg⟩
    change ∃ q, gzipBytes (0xde :: 0xef :: rest) p₁ = _ ∧ _
    rw [gzipBytes_past hTen₁]
    have hCol := hPast₁.collect 0xde
    let p₂ : Prefx :=
      ({ p₁.collect 0xde with
        gzipHcrc := (0xde : UInt8).toUInt16
        headerState := .flagsGetFhcrc2 } : Prefx).next
    have hTen₂ : 10 ≤ p₂.idx := Nat.succ_le_succ hCol.idx
    have hPast₂ : Past p₂ flg :=
      ⟨Nat.le_succ_of_le hCol.idx, hCol.flg⟩
    change ∃ q,
      gzipResume _
        (gzipHeaderLoop 0xde 16 (p₁.collect 0xde)
          .flagsGetFhcrc1) = _ ∧ _
    rw [gzipHeaderLoop_moreData (by decide) (by decide) rfl]
    change ∃ q, gzipBytes (0xef :: rest) p₂ = _ ∧ _
    rw [gzipBytes_past hTen₂]
    have hCol₂ := hPast₂.collect 0xef
    change ∃ q,
      gzipResume _
        (gzipHeaderLoop 0xef 16 (p₂.collect 0xef)
          .flagsGetFhcrc2) = _ ∧ _
    rw [gzipHeaderLoop_goOn (by decide) rfl,
      gzipHeaderLoop_ftext
        (p := { p₂.collect 0xef with
          gzipHcrc := (p₂.collect 0xef).gzipHcrc |||
            (0xef : UInt8).toUInt16 <<< 8 })
        ⟨hCol₂.idx, hCol₂.flg⟩]
    refine ⟨_, rfl, ?_⟩
    change (p₂.collect 0xef).gzipHead.map _ = _
    rw [(p₂.gzipHead_collect 0xef).1]
    change (p₁.collect 0xde).gzipHead.map _ = _
    rw [(p₁.gzipHead_collect 0xde).1]
    rfl
  · have hStep :
        gzipHeaderStep b p .flagsCheckFhcrc =
          some (.goOn p .flagsCheckFtext) := by
      simp only [gzipHeaderStep]
      rw [hPast.flg, if_neg hHcrc]
    rw [if_neg hHcrc, gzipHeaderLoop_goOn (by decide) hStep,
      gzipHeaderLoop_ftext hPast]
    exact ⟨_, rfl, rfl⟩

------------------------------------------------------------
-- The Fixed Part
------------------------------------------------------------

/- The first nine bytes are only collected. -/
theorem gzipBytes_fixed
    {l rest : List UInt8}
    {p : Prefx}
    (hNine : p.idx + l.length ≤ 9) :
    gzipBytes (l ++ rest) p =
      gzipBytes rest
        { p with
          idx := p.idx + l.length
          bytes := p.bytes.store p.idx l } := by
  induction l generalizing p with
  | nil =>
      rw [List.nil_append, store_nil]
      rfl
  | cons b l ih =>
      rw [List.length_cons] at hNine
      have hCollect :
          p.collect b =
            { p with bytes := p.bytes.store p.idx [b] } := by
        unfold Prefx.collect
        rw [if_pos (by unfold zedcFormatStorage; omega)]
      have hMore :
          inflateRemGzipHeader b (p.collect b) =
            some (.needMoreData, p.collect b) := by
        unfold inflateRemGzipHeader
        rw [if_pos]
        rw [(Prefx.collect_keeps b p).idx]
        omega
      rw [List.cons_append, gzipBytes_cons, hMore, hCollect]
      change gzipBytes (l ++ rest)
        { p with
          bytes := p.bytes.store p.idx [b]
          idx := p.idx + 1 } = _
      rw [ih (by simp only; omega)]
      simp only [List.length_cons]
      have hStore :=
        store_store_append p.bytes p.idx [b] l
      rw [List.length_singleton, List.singleton_append]
        at hStore
      rw [hStore]
      congr 2
      omega

end Zedc
