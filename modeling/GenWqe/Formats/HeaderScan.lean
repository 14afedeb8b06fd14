import GenWqe.Formats.Grammar

/-
  The GZIP header parser on any bytes: it is done behind a
  header of its language, asks for more in front of the end
  of one, and refuses where a registered buffer has no room.

  Key definitions include:
    * `Reads`
    * `FitsFields`

  Main results:
    * `StringState.reads`
    * `reads_extra`
    * `gzipBytes_reads`
-/

namespace Zedc

open Words ByteMem

------------------------------------------------------------
-- Rooms
------------------------------------------------------------

/- A fault, or an error of the header. -/
def Refused (out : Option (HdrRc × Prefx × List UInt8)) :
    Prop :=
  out = none ∨ ∃ q rest, out = some (.error, q, rest)

/- What a reader's structure has room for. -/
structure Rooms where
  extra : Bool
  extraMax : UInt32
  name : Bool
  nameMax : UInt32
  comment : Bool
  commMax : UInt32
  deriving DecidableEq

def GzedcHeader.rooms (r : GzedcHeader) : Rooms :=
  ⟨r.extra.isSome, r.extraMax, r.name.isSome, r.nameMax,
    r.comment.isSome, r.commMax⟩

/- Either has room for what the other one has room for. -/
def Alike (g g' : Option GzedcHeader) : Prop :=
  g.map GzedcHeader.rooms = g'.map GzedcHeader.rooms

/- There is room for `n` bytes, or they are not needed. -/
def HeaderBuffer.Fits
    (B : HeaderBuffer)
    (n : Nat)
    (g : Option GzedcHeader) : Prop :=
  n = 0 ∨ B.Room n g

section Buffers

variable {B : HeaderBuffer} {b : UInt8} {p : Prefx}
variable {g : Option GzedcHeader}

theorem HeaderBuffer.Room.mono
    {m n : Nat}
    (hRoom : B.Room n g)
    (hLe : m ≤ n) :
    B.Room m g := by
  intro r hSome
  rcases hRoom r hSome with ⟨hBuf, hMax⟩
  exact ⟨hBuf, by omega⟩

theorem HeaderBuffer.room_none (n : Nat) : B.Room n none :=
  nofun

theorem HeaderBuffer.fits_none (n : Nat) : B.Fits n none :=
  Or.inr (B.room_none n)

/- Without room a byte is not stored. -/
theorem HeaderBuffer.store_noRoom
    {i : Nat}
    (hIdx : p.gzipHead = none ∨ p.gzipHeaderIdx = i)
    (hRoom : ¬B.Room (i + 1) p.gzipHead)
    (b : UInt8) :
    B.store b p = none ∨ B.store b p = some (false, p) := by
  unfold HeaderBuffer.store storeHeaderByte
  cases hHead : p.gzipHead with
  | none =>
      rw [hHead] at hRoom
      exact (hRoom (B.room_none _)).elim
  | some r =>
      have hAt : p.gzipHeaderIdx = i := by
        rcases hIdx with hNone | hAt
        · rw [hHead] at hNone
          cases hNone
        · exact hAt
      simp only
      split
      · rename_i hLt
        cases hBuf : B.buf r with
        | none => exact Or.inl rfl
        | some m =>
            refine (hRoom ?_).elim
            rw [hHead]
            rintro r' ⟨⟩
            rw [hBuf]
            refine ⟨nofun, ?_⟩
            rw [hAt] at hLt
            push_cast
            omega
      · exact Or.inr rfl

/- Rooms decide what a buffer has room for. -/
structure HeaderBuffer.OfRooms (B : HeaderBuffer) : Prop where
  same :
    ∀ r r', r.rooms = r'.rooms →
      (B.buf r).isSome = (B.buf r').isSome ∧
        B.max r = B.max r'
  kept :
    ∀ r m, B.buf r ≠ none → (B.setBuf m r).rooms = r.rooms

theorem HeaderBuffer.extra_ofRooms :
    HeaderBuffer.extra.OfRooms where
  same := by
    intro r r' hSame
    simp only [GzedcHeader.rooms, Rooms.mk.injEq] at hSame
    exact ⟨hSame.1, hSame.2.1⟩
  kept := by
    intro r m hSome
    have hIs := Option.isSome_iff_ne_none.mpr hSome
    change r.extra.isSome = true at hIs
    simp only [HeaderBuffer.extra, GzedcHeader.rooms,
      Option.isSome_some, hIs]

theorem HeaderBuffer.name_ofRooms :
    HeaderBuffer.name.OfRooms where
  same := by
    intro r r' hSame
    simp only [GzedcHeader.rooms, Rooms.mk.injEq] at hSame
    exact ⟨hSame.2.2.1, hSame.2.2.2.1⟩
  kept := by
    intro r m hSome
    have hIs := Option.isSome_iff_ne_none.mpr hSome
    change r.name.isSome = true at hIs
    simp only [HeaderBuffer.name, GzedcHeader.rooms,
      Option.isSome_some, hIs]

theorem HeaderBuffer.comment_ofRooms :
    HeaderBuffer.comment.OfRooms where
  same := by
    intro r r' hSame
    simp only [GzedcHeader.rooms, Rooms.mk.injEq] at hSame
    exact ⟨hSame.2.2.2.2.1, hSame.2.2.2.2.2⟩
  kept := by
    intro r m hSome
    have hIs := Option.isSome_iff_ne_none.mpr hSome
    change r.comment.isSome = true at hIs
    simp only [HeaderBuffer.comment, GzedcHeader.rooms,
      Option.isSome_some, hIs]

section Alike

variable {g' : Option GzedcHeader}

theorem Alike.symm (hAlike : Alike g g') : Alike g' g :=
  Eq.symm hAlike

theorem HeaderBuffer.OfRooms.room
    (hOf : B.OfRooms)
    (hAlike : Alike g g')
    {n : Nat}
    (hRoom : B.Room n g) :
    B.Room n g' := by
  rintro r' rfl
  rcases Option.map_eq_some_iff.mp hAlike with
    ⟨r, rfl, hSame⟩
  rcases hOf.same r r' hSame with ⟨hBuf, hMax⟩
  rcases hRoom r rfl with ⟨hSome, hLe⟩
  refine ⟨?_, by rw [← hMax]; exact hLe⟩
  rw [← Option.isSome_iff_ne_none, ← hBuf]
  exact Option.isSome_iff_ne_none.mpr hSome

theorem HeaderBuffer.OfRooms.fits
    (hOf : B.OfRooms)
    (hAlike : Alike g g')
    {n : Nat}
    (hFits : B.Fits n g) :
    B.Fits n g' :=
  hFits.imp_right (hOf.room hAlike)

/- A store where there is room keeps the rooms. -/
theorem HeaderBuffer.OfRooms.put
    (hOf : B.OfRooms)
    {n : Nat}
    (hRoom : B.Room n g)
    (i : Nat)
    (bs : List UInt8) :
    Alike (g.map (B.put i bs)) g := by
  cases g with
  | none => rfl
  | some r => exact congrArg some (hOf.kept r _ (hRoom r rfl).1)

end Alike

end Buffers

------------------------------------------------------------
-- Strings
------------------------------------------------------------

/- The bytes of a string that begins `l`, with its zero. -/
def stringTaken : List UInt8 → List UInt8
  | [] => []
  | b :: l => if b = 0 then [b] else b :: stringTaken l

/- The bytes behind it. -/
def stringRest : List UInt8 → List UInt8
  | [] => []
  | b :: l => if b = 0 then l else stringRest l

theorem stringTaken_end
    {str : List UInt8}
    (hZero : (0 : UInt8) ∉ str)
    (rest : List UInt8) :
    stringTaken (str ++ 0 :: rest) = str ++ [0] ∧
      stringRest (str ++ 0 :: rest) = rest := by
  induction str with
  | nil => exact ⟨rfl, rfl⟩
  | cons b str ih =>
      have hB : b ≠ 0 := fun h =>
        hZero (by rw [h]; exact List.mem_cons_self)
      rcases ih (fun h => hZero (List.mem_cons_of_mem _ h))
        with ⟨hTaken, hRest⟩
      rw [List.cons_append, stringTaken, stringRest,
        if_neg hB, if_neg hB, hTaken, hRest]
      exact ⟨rfl, rfl⟩

theorem stringTaken_open
    {l : List UInt8}
    (hZero : (0 : UInt8) ∉ l) :
    stringTaken l = l ∧ stringRest l = [] := by
  induction l with
  | nil => exact ⟨rfl, rfl⟩
  | cons b l ih =>
      have hB : b ≠ 0 := fun h =>
        hZero (by rw [h]; exact List.mem_cons_self)
      rcases ih (fun h => hZero (List.mem_cons_of_mem _ h))
        with ⟨hTaken, hRest⟩
      rw [stringTaken, stringRest, if_neg hB, if_neg hB,
        hTaken, hRest]
      exact ⟨rfl, rfl⟩

/- The parser is in a string, with `i` bytes stored. -/
structure InString
    {B : HeaderBuffer}
    (S : StringState B)
    (flg : UInt8)
    (i : Nat)
    (p : Prefx) : Prop where
  past : Past p flg
  ten : 10 ≤ p.idx
  state : p.headerState = S.state
  idx : p.gzipHead = none ∨ p.gzipHeaderIdx = i

section Strings

variable {B : HeaderBuffer} {S : StringState B}
variable {flg b : UInt8} {i : Nat} {p : Prefx}

/- One more byte of a string is stored. -/
theorem InString.turn
    (hIn : InString S flg i p)
    (hB : b ≠ 0)
    (hRoom : B.Room (i + 1) p.gzipHead)
    (l : List UInt8) :
    ∃ p',
      gzipBytes (b :: l) p = gzipBytes l p' ∧
        InString S flg (i + 1) p' ∧
        p'.gzipHead = p.gzipHead.map (B.put i [b]) := by
  rcases p.gzipHead_collect b with ⟨hHead, hAt, -⟩
  rcases B.store_room (i := i) (p := p.collect b) b
      (by rw [hHead, hAt]; exact hIn.idx)
      (by rw [hHead]; exact hRoom) with
    ⟨k, hStore, hK⟩
  have hStep :
      gzipHeaderStep b (p.collect b) S.state =
        some (.moreData (B.stored i b k (p.collect b))
          S.state) := by
    rw [S.step, if_neg hB, hStore]
    rfl
  have hMid :
      Past
        { B.stored i b k (p.collect b) with
          headerState := S.state } flg :=
    ⟨(hIn.past.collect b).idx, (hIn.past.collect b).flg⟩
  have hPut :
      (B.stored i b k (p.collect b)).gzipHead =
        p.gzipHead.map (B.put i [b]) := by
    change (p.collect b).gzipHead.map _ = _
    rw [hHead]
  refine ⟨_, ?_, ⟨hMid.next.1, hMid.next.2, rfl, ?_⟩, hPut⟩
  · rw [gzipBytes_past hIn.ten, hIn.state,
      gzipHeaderLoop_moreData S.state_open S.state_open
        hStep]
    rfl
  · rcases hK with hNone | hK
    · rw [hHead] at hNone
      refine Or.inl (hPut.trans ?_)
      rw [hNone]
      rfl
    · exact Or.inr hK

/- A byte of a string for which there is no room. -/
theorem InString.stop
    (hIn : InString S flg i p)
    (hRoom : ¬B.Room (i + 1) p.gzipHead)
    (l : List UInt8) :
    Refused (gzipBytes (b :: l) p) := by
  rcases p.gzipHead_collect b with ⟨hHead, hAt, -⟩
  have hStore := B.store_noRoom (p := p.collect b)
    (by rw [hHead, hAt]; exact hIn.idx)
    (by rw [hHead]; exact hRoom) b
  rw [gzipBytes_past hIn.ten, hIn.state]
  have hStep :
      gzipHeaderStep b (p.collect b) S.state = none ∨
        gzipHeaderStep b (p.collect b) S.state =
          some (.refuse (p.collect b)) := by
    rw [S.step]
    rcases hStore with hStore | hStore
    · rw [hStore]
      exact Or.inl (ite_self _)
    · rw [hStore]
      exact Or.inr (ite_self _)
  rcases hStep with hStep | hStep
  · refine Or.inl ?_
    rw [gzipHeaderLoop, if_neg S.state_open, hStep]
    rfl
  · refine Or.inr ⟨(p.collect b).next, l, ?_⟩
    rw [gzipHeaderLoop_refuse S.state_open hStep]
    rfl

/- The string is not at its end yet. -/
theorem InString.more
    {l : List UInt8}
    (hIn : InString S flg i p)
    (hZero : (0 : UInt8) ∉ l)
    (hRoom : l = [] ∨ B.Room (i + l.length) p.gzipHead) :
    ∃ q, gzipBytes l p = some (.needMoreData, q, []) := by
  induction l generalizing p i with
  | nil => exact ⟨p, rfl⟩
  | cons b l ih =>
      have hB : b ≠ 0 := fun h =>
        hZero (by rw [h]; exact List.mem_cons_self)
      have hAll := hRoom.resolve_left (List.cons_ne_nil _ _)
      rw [List.length_cons] at hAll
      rcases hIn.turn hB (hAll.mono (by omega)) l with
        ⟨p', hTurn, hIn', hHead⟩
      rw [hTurn]
      apply ih hIn' (fun h =>
        hZero (List.mem_cons_of_mem _ h))
      refine Or.inr ?_
      rw [hHead, Nat.add_assoc, Nat.add_comm 1]
      exact B.room_put hAll

/- A string is refused when there is no more room. -/
theorem InString.refused
    {l : List UInt8}
    (hIn : InString S flg i p)
    (hSome : l ≠ [])
    (hRoom :
      ¬B.Room (i + (stringTaken l).length) p.gzipHead) :
    Refused (gzipBytes l p) := by
  induction l generalizing p i with
  | nil => exact (hSome rfl).elim
  | cons b l ih =>
      by_cases hOne : B.Room (i + 1) p.gzipHead
      · by_cases hB : b = 0
        · rw [stringTaken, if_pos hB] at hRoom
          exact (hRoom hOne).elim
        rw [stringTaken, if_neg hB, List.length_cons]
          at hRoom
        rcases hIn.turn hB hOne l with
          ⟨p', hTurn, hIn', hHead⟩
        rw [hTurn]
        apply ih hIn'
        · rintro rfl
          exact hRoom hOne
        · intro hRest
          apply hRoom
          intro r hSome'
          have hPut := hRest (B.put i [b] r) (by
            rw [hHead, hSome']
            rfl)
          refine ⟨(hOne r hSome').1, ?_⟩
          have hMax := hPut.2
          unfold HeaderBuffer.put at hMax
          rw [B.max_setBuf] at hMax
          push_cast at hMax ⊢
          omega
      · exact hIn.stop hOne l

end Strings

------------------------------------------------------------
-- The Extra Field
------------------------------------------------------------

/-
  The parser is in the extra field, with `i` bytes stored and
  `n` to come.
-/
structure InExtra
    (flg : UInt8)
    (n i : Nat)
    (p : Prefx) : Prop where
  past : Past p flg
  ten : 10 ≤ p.idx
  state : p.headerState = .flagsGetExtra
  count : extraCount p.xlen = n
  idx : p.gzipHead = none ∨ p.gzipHeaderIdx = i

section Extra

variable {flg b : UInt8} {n i : Nat} {p : Prefx}

theorem extraCount_eq_one_iff
    {x : UInt16} :
    extraCount x = 1 ↔ x = 1 := by
  constructor
  · intro hOne
    unfold extraCount at hOne
    split at hOne
    · cases hOne
    · exact UInt16.toNat_inj.mp hOne
  · rintro rfl
    rfl

theorem extraCount_sub_one
    {x : UInt16}
    (hCount : extraCount x = n + 2) :
    extraCount (x - 1) = n + 1 := by
  unfold extraCount at hCount
  split at hCount
  · rename_i hZero
    have hN : n = 2 ^ 16 - 2 := by omega
    rw [hZero, hN]
    rfl
  · have hSub : (x - 1).toNat = x.toNat - 1 :=
      UInt16.toNat_sub_one (by omega)
    rw [extraCount_of_ne, hSub, hCount]
    · rfl
    · intro hZero
      rw [hZero, hCount] at hSub
      cases hSub

theorem extraCount_pos (x : UInt16) :
    extraCount x ≠ 0 := by
  unfold extraCount
  split
  · decide
  · rename_i hSome
    exact fun hZero => hSome (UInt16.toNat_inj.mp hZero)

/- One more byte of the extra field is stored. -/
theorem InExtra.turn
    (hIn : InExtra flg (n + 2) i p)
    (hRoom : HeaderBuffer.extra.Room (i + 1) p.gzipHead)
    (b : UInt8)
    (l : List UInt8) :
    ∃ p',
      gzipBytes (b :: l) p = gzipBytes l p' ∧
        InExtra flg (n + 1) (i + 1) p' ∧
        p'.gzipHead =
          p.gzipHead.map (HeaderBuffer.extra.put i [b]) := by
  rcases p.gzipHead_collect b with ⟨hHead, hAt, hXlen⟩
  have hMore : (p.collect b).xlen ≠ 1 := by
    intro hOne
    have hCount := hIn.count
    rw [← hXlen, extraCount_eq_one_iff.mpr hOne] at hCount
    omega
  rcases HeaderBuffer.extra.store_room (i := i)
      (p := (p.collect b).countExtra) b
      (by
        change (p.collect b).gzipHead = none ∨
          (p.collect b).gzipHeaderIdx = i
        rw [hHead, hAt]
        exact hIn.idx)
      (by
        change HeaderBuffer.extra.Room (i + 1)
          (p.collect b).gzipHead
        rw [hHead]
        exact hRoom) with
    ⟨k, hStore, hK⟩
  have hStep :
      gzipHeaderStep b (p.collect b) .flagsGetExtra =
        some (.moreData
          (HeaderBuffer.extra.stored i b k
            (p.collect b).countExtra) .flagsGetExtra) := by
    rw [gzipHeaderStep_extra, if_neg hMore, hStore]
    rfl
  have hMid :
      Past
        { HeaderBuffer.extra.stored i b k
            (p.collect b).countExtra with
          headerState := .flagsGetExtra } flg :=
    ⟨(hIn.past.collect b).idx, (hIn.past.collect b).flg⟩
  have hPut :
      (HeaderBuffer.extra.stored i b k
          (p.collect b).countExtra).gzipHead =
        p.gzipHead.map (HeaderBuffer.extra.put i [b]) := by
    change (p.collect b).gzipHead.map _ = _
    rw [hHead]
  refine ⟨_, ?_,
    ⟨hMid.next.1, hMid.next.2, rfl, ?_, ?_⟩, hPut⟩
  · rw [gzipBytes_past hIn.ten, hIn.state,
      gzipHeaderLoop_moreData (by decide) (by decide) hStep]
    rfl
  · change extraCount ((p.collect b).xlen - 1) = n + 1
    rw [hXlen]
    exact extraCount_sub_one hIn.count
  · rcases hK with hNone | hK
    · change (p.collect b).gzipHead = none at hNone
      rw [hHead] at hNone
      refine Or.inl (hPut.trans ?_)
      rw [hNone]
      rfl
    · exact Or.inr hK

/- The last byte of the extra field. -/
theorem InExtra.last
    (hIn : InExtra flg 1 i p)
    (hRoom : HeaderBuffer.extra.Room (i + 1) p.gzipHead)
    (b : UInt8)
    (l : List UInt8) :
    ∃ q,
      gzipBytes (b :: l) p =
          gzipResume l
            (gzipHeaderLoop b 15 q .flagsCheckFname) ∧
        Past q flg ∧
        q.gzipHead =
          p.gzipHead.map (HeaderBuffer.extra.put i [b]) := by
  rcases p.gzipHead_collect b with ⟨hHead, hAt, hXlen⟩
  have hLast : (p.collect b).xlen = 1 := by
    rw [hXlen]
    exact extraCount_eq_one_iff.mp hIn.count
  rcases HeaderBuffer.extra.store_room (i := i)
      (p := p.collect b) b
      (by rw [hHead, hAt]; exact hIn.idx)
      (by rw [hHead]; exact hRoom) with
    ⟨k, hStore, -⟩
  have hStep :
      gzipHeaderStep b (p.collect b) .flagsGetExtra =
        some (.goOn
          (HeaderBuffer.extra.stored i b k (p.collect b))
          .flagsCheckFname) := by
    rw [gzipHeaderStep_extra, if_pos hLast, hStore]
    rfl
  refine ⟨HeaderBuffer.extra.stored i b k (p.collect b),
    ?_, ?_, ?_⟩
  · rw [gzipBytes_past hIn.ten, hIn.state,
      gzipHeaderLoop_goOn (by decide) hStep]
  · exact ⟨(hIn.past.collect b).idx,
      (hIn.past.collect b).flg⟩
  · change (p.collect b).gzipHead.map _ = _
    rw [hHead]

/- A byte of the extra field for which there is no room. -/
theorem InExtra.stop
    (hIn : InExtra flg n i p)
    (hRoom : ¬HeaderBuffer.extra.Room (i + 1) p.gzipHead)
    (l : List UInt8) :
    Refused (gzipBytes (b :: l) p) := by
  rcases p.gzipHead_collect b with ⟨hHead, hAt, -⟩
  -- the count is changed before the byte is stored
  have hEither : ∀ q : Prefx,
      q.gzipHead = p.gzipHead →
        q.gzipHeaderIdx = p.gzipHeaderIdx →
          HeaderBuffer.extra.store b q = none ∨
            HeaderBuffer.extra.store b q =
              some (false, q) := by
    intro q hQ hQAt
    exact HeaderBuffer.extra.store_noRoom
      (by rw [hQ, hQAt]; exact hIn.idx)
      (by rw [hQ]; exact hRoom) b
  have hStep :
      gzipHeaderStep b (p.collect b) .flagsGetExtra = none ∨
        ∃ q,
          gzipHeaderStep b (p.collect b) .flagsGetExtra =
            some (.refuse q) := by
    rw [gzipHeaderStep_extra]
    split
    · rcases hEither _ hHead hAt with hStore | hStore
      · rw [hStore]
        exact Or.inl rfl
      · rw [hStore]
        exact Or.inr ⟨_, rfl⟩
    · rcases hEither (p.collect b).countExtra hHead hAt with
        hStore | hStore
      · rw [hStore]
        exact Or.inl rfl
      · rw [hStore]
        exact Or.inr ⟨_, rfl⟩
  rw [gzipBytes_past hIn.ten, hIn.state]
  rcases hStep with hStep | ⟨q, hStep⟩
  · refine Or.inl ?_
    rw [gzipHeaderLoop, if_neg (by decide), hStep]
    rfl
  · refine Or.inr ⟨q.next, l, ?_⟩
    rw [gzipHeaderLoop_refuse (by decide) hStep]
    rfl

/- The extra field is read to its end. -/
theorem InExtra.done
    {l : List UInt8}
    (hIn : InExtra flg n i p)
    (hLength : l.length = n)
    (hRoom : HeaderBuffer.extra.Room (i + n) p.gzipHead)
    (rest : List UInt8) :
    ∃ b q,
      gzipBytes (l ++ rest) p =
          gzipResume rest
            (gzipHeaderLoop b 15 q .flagsCheckFname) ∧
        Past q flg ∧
        q.gzipHead =
          p.gzipHead.map (HeaderBuffer.extra.put i l) := by
  induction l generalizing p n i with
  | nil =>
      rw [List.length_nil] at hLength
      exact (extraCount_pos _
        (hIn.count.trans hLength.symm)).elim
  | cons b l ih =>
      rw [List.length_cons] at hLength
      have hOne := hRoom.mono (m := i + 1) (by omega)
      cases l with
      | nil =>
          rw [List.length_nil] at hLength
          subst hLength
          rcases hIn.last hOne b rest with
            ⟨q, hGo, hQ, hHead⟩
          exact ⟨b, q, hGo, hQ, hHead⟩
      | cons c l =>
          rw [List.length_cons] at hLength
          subst hLength
          rcases hIn.turn hOne b (c :: l ++ rest) with
            ⟨p', hTurn, hIn', hHead⟩
          rcases ih hIn' rfl (by
            rw [hHead, Nat.add_assoc, Nat.add_comm 1]
            exact HeaderBuffer.extra.room_put hRoom) with
            ⟨b', q, hGo, hQ, hQHead⟩
          refine ⟨b', q, ?_, hQ, ?_⟩
          · rw [List.cons_append, hTurn, hGo]
          · rw [hQHead, hHead, Option.map_map]
            congr 1
            funext r
            exact HeaderBuffer.extra.put_put i [b] _ r

/- The extra field is not at its end yet. -/
theorem InExtra.more
    {l : List UInt8}
    (hIn : InExtra flg n i p)
    (hShort : l.length < n)
    (hRoom :
      l = [] ∨
        HeaderBuffer.extra.Room (i + l.length)
          p.gzipHead) :
    ∃ q, gzipBytes l p = some (.needMoreData, q, []) := by
  induction l generalizing p n i with
  | nil => exact ⟨p, rfl⟩
  | cons b l ih =>
      have hAll := hRoom.resolve_left (List.cons_ne_nil _ _)
      rw [List.length_cons] at hAll hShort
      rcases Nat.exists_eq_add_of_le' hShort with ⟨m, hM⟩
      have hN : n = m + l.length + 2 := by omega
      subst hN
      rcases hIn.turn (hAll.mono (by omega)) b l with
        ⟨p', hTurn, hIn', hHead⟩
      rw [hTurn]
      apply ih hIn' (by omega)
      refine Or.inr ?_
      rw [hHead, Nat.add_assoc, Nat.add_comm 1]
      exact HeaderBuffer.extra.room_put hAll

/- The extra field is refused when there is no more room. -/
theorem InExtra.refused
    {l : List UInt8}
    (hIn : InExtra flg n i p)
    (hSome : l ≠ [])
    (hRoom :
      ¬HeaderBuffer.extra.Room (i + (l.take n).length)
        p.gzipHead) :
    Refused (gzipBytes l p) := by
  induction l generalizing p n i with
  | nil => exact (hSome rfl).elim
  | cons b l ih =>
      by_cases hOne :
          HeaderBuffer.extra.Room (i + 1) p.gzipHead
      · rcases n with _ | _ | n
        · exact (extraCount_pos _ hIn.count).elim
        · exact (hRoom (hOne.mono (by simp))).elim
        · rcases hIn.turn hOne b l with
            ⟨p', hTurn, hIn', hHead⟩
          rw [hTurn]
          rw [List.take_succ_cons, List.length_cons] at hRoom
          apply ih hIn'
          · rintro rfl
            exact hRoom (hOne.mono (by simp))
          · intro hRest
            apply hRoom
            intro r hSome'
            have hPut := hRest
              (HeaderBuffer.extra.put i [b] r) (by
                rw [hHead, hSome']
                rfl)
            refine ⟨(hOne r hSome').1, ?_⟩
            have hMax := hPut.2
            unfold HeaderBuffer.put at hMax
            rw [HeaderBuffer.extra.max_setBuf] at hMax
            push_cast at hMax ⊢
            omega
      · exact hIn.stop hOne l

end Extra

------------------------------------------------------------
-- Reading Each Part
------------------------------------------------------------

/- The answers of the parser. -/
def headerAnswers :
    Answers UInt8 (Option (HdrRc × Prefx × List UInt8)) where
  done := fun rest out => ∃ q, out = some (.ok, q, rest)
  more := fun out => ∃ q, out = some (.needMoreData, q, [])
  refused := Refused

/- From a state the parser reads words of a language. -/
def ReadsFrom
    (flg : UInt8)
    (g : Option GzedcHeader)
    (turns : Nat)
    (state : HeadState)
    (L : Language UInt8)
    (Fit : List UInt8 → Prop) : Prop :=
  ∀ b fuel p, Past p flg → Alike p.gzipHead g →
    Reads headerAnswers L Fit fun l =>
      gzipResume l (gzipHeaderLoop b (fuel + turns) p state)

/- There is room for a string that is announced. -/
def StringFits
    (B : HeaderBuffer)
    (mask flg : UInt8)
    (g : Option GzedcHeader)
    (l : List UInt8) : Prop :=
  flg &&& mask ≠ 0 → B.Fits (stringTaken l).length g

section Parts

variable {flg : UInt8} {g : Option GzedcHeader}
variable {M : Language UInt8} {Behind : List UInt8 → Prop}
variable {turns : Nat}

theorem readsFrom_ftext :
    ReadsFrom flg g 2 .flagsCheckFtext 1 (fun _ => True) := by
  intro b fuel p hPast _
  refine ⟨?_, fun l hNone _ => (hNone (ahead_one l)).elim,
    fun _ hNot => (hNot trivial).elim⟩
  intro u hu rest _
  rw [(Language.mem_one u).mp hu, gzipHeaderLoop_ftext hPast]
  exact ⟨_, rfl⟩

/- The check sum of a header is not looked at. -/
theorem readsFrom_crc :
    ReadsFrom flg g 3 .flagsCheckFhcrc (crcPart flg)
      (fun _ => True) := by
  intro b fuel p hPast hAlike
  by_cases hFlag : flg &&& 0x02 ≠ 0
  swap
  · have hStep :
        gzipHeaderStep b p .flagsCheckFhcrc =
          some (.goOn p .flagsCheckFtext) := by
      simp only [gzipHeaderStep]
      rw [hPast.flg, if_neg hFlag]
    unfold crcPart
    rw [if_neg hFlag, ← Nat.add_assoc fuel 2 1,
      gzipHeaderLoop_goOn (by decide) hStep]
    exact readsFrom_ftext b fuel p hPast hAlike
  have hFirst :
      gzipHeaderStep b p .flagsCheckFhcrc =
        some (.moreData p .flagsGetFhcrc1) := by
    simp only [gzipHeaderStep]
    rw [hPast.flg, if_pos hFlag]
  unfold crcPart
  rw [if_pos hFlag, ← Nat.add_assoc fuel 2 1,
    gzipHeaderLoop_moreData (by decide) (by decide) hFirst]
  let p₁ : Prefx :=
    ({ p with headerState := .flagsGetFhcrc1 } :
      Prefx).next
  have hPast₁ : Past p₁ flg :=
    ⟨Nat.le_succ_of_le hPast.idx, hPast.flg⟩
  have hTen₁ : 10 ≤ p₁.idx := Nat.succ_le_succ hPast.idx
  let p₂ (c : UInt8) : Prefx :=
    ({ p₁.collect c with
      gzipHcrc := c.toUInt16
      headerState := .flagsGetFhcrc2 } : Prefx).next
  have hOne : ∀ c l,
      gzipBytes (c :: l) p₁ = gzipBytes l (p₂ c) := by
    intro c l
    rw [gzipBytes_past hTen₁]
    change gzipResume _
      (gzipHeaderLoop c 16 (p₁.collect c)
        .flagsGetFhcrc1) = _
    rw [gzipHeaderLoop_moreData (by decide) (by decide) rfl]
    rfl
  change Reads headerAnswers headerCrcs _ fun l =>
    gzipBytes l p₁
  refine ⟨?_, ?_, fun _ hNot => (hNot trivial).elim⟩
  · intro u hu rest _
    rcases List.length_eq_two.mp hu with ⟨c, d, rfl⟩
    have hCol := hPast₁.collect c
    have hPast₂ : Past (p₂ c) flg :=
      ⟨Nat.le_succ_of_le hCol.idx, hCol.flg⟩
    have hTen₂ : 10 ≤ (p₂ c).idx :=
      Nat.succ_le_succ hCol.idx
    have hCol₂ := hPast₂.collect d
    rw [List.cons_append, List.cons_append,
      List.nil_append, hOne, gzipBytes_past hTen₂]
    change ∃ q,
      gzipResume _
        (gzipHeaderLoop d 16 ((p₂ c).collect d)
          .flagsGetFhcrc2) = _
    rw [gzipHeaderLoop_goOn (by decide) rfl,
      gzipHeaderLoop_ftext
        (p := { (p₂ c).collect d with
          gzipHcrc := ((p₂ c).collect d).gzipHcrc |||
            d.toUInt16 <<< 8 })
        ⟨hCol₂.idx, hCol₂.flg⟩]
    exact ⟨_, rfl⟩
  · intro l hNone _
    rcases l with _ | ⟨c, _ | ⟨d, l⟩⟩
    · exact ⟨p₁, rfl⟩
    · exact ⟨p₂ c, hOne c []⟩
    · exact (hNone ⟨[c, d], rfl, ⟨l, rfl⟩⟩).elim

/- A string, and then what is read behind it. -/
theorem StringState.readsFrom
    {B : HeaderBuffer}
    (S : StringState B)
    (hOf : B.OfRooms)
    (hTurns : turns ≤ 15)
    (hNext : ReadsFrom flg g turns S.next M Behind) :
    ReadsFrom flg g (turns + 1) S.check
      (stringPart S.mask flg * M)
      (FitsBoth (stringPart S.mask flg)
        (StringFits B S.mask flg g) Behind) := by
  intro b fuel p hPast hAlike
  by_cases hFlag : flg &&& S.mask ≠ 0
  swap
  · unfold stringPart
    rw [if_neg hFlag, ← Nat.add_assoc,
      S.check_none hPast hFlag]
    exact Reads.one_mul
      (fun _ h => (hFlag h).elim)
      (hNext b fuel p hPast hAlike)
  let p₀ : Prefx :=
    { p with
      gzipHeaderIdx := 0
      headerState := S.state
      idx := p.idx + 1 }
  have hIn : InString S flg 0 p₀ :=
    ⟨⟨Nat.le_succ_of_le hPast.idx, hPast.flg⟩,
      Nat.succ_le_succ hPast.idx, rfl, Or.inr rfl⟩
  have hRun : ∀ l,
      gzipResume l
          (gzipHeaderLoop b (fuel + (turns + 1)) p S.check) =
        gzipBytes l p₀ := by
    intro l
    rw [← Nat.add_assoc, S.check_some hPast hFlag]
  unfold stringPart
  rw [if_pos hFlag]
  simp only [hRun]
  apply Reads.mul (prefixFree_terminated 0)
  · intro l hNone hFit
    rw [ahead_terminated] at hNone
    apply hIn.more hNone
    have hFits := hOf.fits hAlike.symm (hFit hFlag)
    rw [(stringTaken_open hNone).1] at hFits
    rcases hFits with hNil | hRoom
    · exact Or.inl (List.length_eq_zero_iff.mp hNil)
    · refine Or.inr ?_
      rw [Nat.zero_add]
      exact hRoom
  · intro l hNot
    have hNoFit : ¬B.Fits (stringTaken l).length g :=
      fun h => hNot (fun _ => h)
    apply hIn.refused
    · rintro rfl
      exact hNoFit (Or.inl rfl)
    · intro hRoom
      rw [Nat.zero_add] at hRoom
      exact hNoFit (Or.inr (hOf.room hAlike hRoom))
  · rintro u ⟨str, hZero, rfl⟩ rest hFit
    have hFits := hFit hFlag
    rw [List.append_assoc, List.singleton_append,
      (stringTaken_end hZero rest).1] at hFits
    have hRoom : B.Room (0 + str.length + 1) p₀.gzipHead := by
      refine hOf.room hAlike.symm ?_
      rcases hFits with hNil | hRoom
      · simp at hNil
      · simpa using hRoom
    rcases @gzipBytes_string B S str rest hZero _ _ _ hIn.past
      hIn.ten rfl hIn.idx hRoom with ⟨q, hGo, hQ, hHead⟩
    rcases Nat.exists_eq_add_of_le' hTurns with ⟨f, hF⟩
    refine ⟨fun l =>
      gzipResume l (gzipHeaderLoop 0 (f + turns) q S.next),
      ?_, hNext 0 f q hQ ?_⟩
    · rw [List.append_assoc, List.singleton_append, hGo, hF]
    · rw [hHead]
      exact (hOf.put hRoom 0 _).trans hAlike

/- There is room for an extra field that is announced. -/
def ExtraFits
    (flg : UInt8)
    (g : Option GzedcHeader)
    (l : List UInt8) : Prop :=
  flg &&& 0x04 ≠ 0 →
    ∀ lo hi rest, l = lo :: hi :: rest →
      HeaderBuffer.extra.Fits
        (rest.take (extraCount (xlenOf lo hi))).length g

/- The length, the bytes, and what is read behind them. -/
theorem readsFrom_extra
    (hTurns : turns ≤ 15)
    (hNext :
      ReadsFrom flg g turns .flagsCheckFname M Behind) :
    ReadsFrom flg g (turns + 1) .flagsCheckExtra
      (extraPart extraCount flg * M)
      (FitsBoth (extraPart extraCount flg) (ExtraFits flg g)
        Behind) := by
  intro b fuel p hPast hAlike
  by_cases hFlag : flg &&& 0x04 ≠ 0
  swap
  · unfold extraPart
    rw [if_neg hFlag, ← Nat.add_assoc,
      gzipHeaderLoop_noExtra hPast hFlag]
    exact Reads.one_mul
      (fun _ h => (hFlag h).elim)
      (hNext b fuel p hPast hAlike)
  have hFirst :
      gzipHeaderStep b p .flagsCheckExtra =
        some (.moreData p .flagsGetExtraLen1) := by
    simp only [gzipHeaderStep]
    rw [hPast.flg, if_pos hFlag]
  rw [← Nat.add_assoc,
    gzipHeaderLoop_moreData (by decide) (by decide) hFirst]
  let p₁ : Prefx :=
    ({ p with headerState := .flagsGetExtraLen1 } :
      Prefx).next
  have hPast₁ : Past p₁ flg :=
    ⟨Nat.le_succ_of_le hPast.idx, hPast.flg⟩
  have hTen₁ : 10 ≤ p₁.idx := Nat.succ_le_succ hPast.idx
  -- behind each of the two bytes of the length
  let p₂ (lo : UInt8) : Prefx :=
    ({ p₁.collect lo with
      xlen := lo.toUInt16
      gzipHeaderIdx := 0
      headerState := .flagsGetExtraLen2 } : Prefx).next
  let p₃ (lo hi : UInt8) : Prefx :=
    ({ { (p₂ lo).collect hi with
          xlen := ((p₂ lo).collect hi).xlen |||
            hi.toUInt16 <<< 8 }.setHead
        (setExtraLen (((p₂ lo).collect hi).xlen |||
          hi.toUInt16 <<< 8)) with
      headerState := .flagsGetExtra } : Prefx).next
  have hOne : ∀ lo l,
      gzipBytes (lo :: l) p₁ = gzipBytes l (p₂ lo) := by
    intro lo l
    rw [gzipBytes_past hTen₁]
    change gzipResume _
      (gzipHeaderLoop lo 16 (p₁.collect lo)
        .flagsGetExtraLen1) = _
    rw [gzipHeaderLoop_moreData (by decide) (by decide) rfl]
    rfl
  have hPast₂ : ∀ lo, Past (p₂ lo) flg ∧
      10 ≤ (p₂ lo).idx := by
    intro lo
    have hCol := hPast₁.collect lo
    exact ⟨⟨Nat.le_succ_of_le hCol.idx, hCol.flg⟩,
      Nat.succ_le_succ hCol.idx⟩
  have hTwo : ∀ lo hi l,
      gzipBytes (hi :: l) (p₂ lo) =
        gzipBytes l (p₃ lo hi) := by
    intro lo hi l
    rw [gzipBytes_past (hPast₂ lo).2]
    change gzipResume _
      (gzipHeaderLoop hi 16 ((p₂ lo).collect hi)
        .flagsGetExtraLen2) = _
    rw [gzipHeaderLoop_moreData (by decide) (by decide) rfl]
    rfl
  have hHead : ∀ lo hi, Alike (p₃ lo hi).gzipHead g := by
    intro lo hi
    refine Eq.trans ?_ hAlike
    change (((p₂ lo).collect hi).gzipHead.map _).map _ = _
    rw [((p₂ lo).gzipHead_collect hi).1, Option.map_map]
    change (p₁.collect lo).gzipHead.map _ = _
    rw [(p₁.gzipHead_collect lo).1]
    rfl
  have hIn : ∀ lo hi,
      InExtra flg (extraCount (xlenOf lo hi)) 0
        (p₃ lo hi) := by
    intro lo hi
    have hCol := (hPast₂ lo).1.collect hi
    rcases (p₂ lo).gzipHead_collect hi with ⟨-, hAt, hXlen⟩
    refine ⟨⟨Nat.le_succ_of_le hCol.idx, hCol.flg⟩,
      Nat.succ_le_succ hCol.idx, rfl, ?_, Or.inr hAt⟩
    change extraCount (((p₂ lo).collect hi).xlen |||
      hi.toUInt16 <<< 8) = _
    rw [hXlen]
    rfl
  change Reads headerAnswers _ _ fun l => gzipBytes l p₁
  have hFree := extraPart_prefixFree extraCount flg
  unfold extraPart at hFree ⊢
  rw [if_pos hFlag] at hFree ⊢
  apply Reads.mul hFree
  · intro l hNone hFit
    rcases l with _ | ⟨lo, _ | ⟨hi, l⟩⟩
    · exact ⟨p₁, rfl⟩
    · exact ⟨p₂ lo, hOne lo []⟩
    · have hShort :
          l.length < extraCount (xlenOf lo hi) := by
        by_contra hLong
        refine hNone ⟨lo :: hi ::
          l.take (extraCount (xlenOf lo hi)),
          ⟨lo, hi, _, ?_, rfl⟩, ?_⟩
        · rw [List.length_take]
          omega
        · exact List.cons_prefix_cons.mpr ⟨rfl,
            List.cons_prefix_cons.mpr
              ⟨rfl, List.take_prefix _ _⟩⟩
      have hFits := hFit hFlag lo hi l rfl
      rw [List.take_of_length_le (Nat.le_of_lt hShort)]
        at hFits
      rw [hOne, hTwo]
      apply (hIn lo hi).more hShort
      rcases hFits with hNil | hRoom
      · exact Or.inl (List.length_eq_zero_iff.mp hNil)
      · refine Or.inr ?_
        rw [Nat.zero_add]
        exact HeaderBuffer.extra_ofRooms.room
          (hHead lo hi).symm hRoom
  · intro l hNot
    have hSome :
        ∃ lo hi rest, l = lo :: hi :: rest ∧
          ¬HeaderBuffer.extra.Fits
            (rest.take (extraCount (xlenOf lo hi))).length
            g := by
      by_contra hAll
      refine hNot (fun _ lo hi rest hEq => ?_)
      by_contra hFits
      exact hAll ⟨lo, hi, rest, hEq, hFits⟩
    rcases hSome with ⟨lo, hi, rest, rfl, hNoFit⟩
    rw [hOne, hTwo]
    apply (hIn lo hi).refused
    · rintro rfl
      exact hNoFit (Or.inl (by simp))
    · intro hRoom
      rw [Nat.zero_add] at hRoom
      exact hNoFit (Or.inr
        (HeaderBuffer.extra_ofRooms.room (hHead lo hi)
          hRoom))
  · rintro u ⟨lo, hi, extra, hLength, rfl⟩ rest hFit
    have hFits := hFit hFlag lo hi (extra ++ rest) rfl
    rw [List.take_left' hLength, hLength] at hFits
    have hRoom := HeaderBuffer.extra_ofRooms.room
      (hHead lo hi).symm
      (hFits.resolve_left (extraCount_pos _))
    rcases (hIn lo hi).done hLength (by
      rw [Nat.zero_add]
      exact hRoom) rest with ⟨c, q, hGo, hQ, hQHead⟩
    rcases Nat.exists_eq_add_of_le' hTurns with ⟨f, hF⟩
    refine ⟨fun l => gzipResume l
      (gzipHeaderLoop c (f + turns) q .flagsCheckFname),
      ?_, hNext c f q hQ ?_⟩
    · rw [List.cons_append, List.cons_append, hOne, hTwo,
        hGo, hF]
    · rw [hQHead]
      exact (HeaderBuffer.extra_ofRooms.put hRoom 0 _).trans
        (hHead lo hi)

/- There is room for the strings that are announced. -/
def StringsFit
    (flg : UInt8)
    (g : Option GzedcHeader) : List UInt8 → Prop :=
  FitsBoth (stringPart 0x08 flg)
    (StringFits HeaderBuffer.name 0x08 flg g)
    (FitsBoth (stringPart 0x10 flg)
      (StringFits HeaderBuffer.comment 0x10 flg g)
      fun _ => True)

/- And for the extra field in front of them. -/
def FieldsFit
    (flg : UInt8)
    (g : Option GzedcHeader) : List UInt8 → Prop :=
  FitsBoth (extraPart extraCount flg) (ExtraFits flg g)
    (StringsFit flg g)

/-
  What is announced by the fixed part, if the bytes begin
  with one, fits into a registered structure.
-/
def HeaderFits
    (g : Option GzedcHeader)
    (x : List UInt8) : Prop :=
  ∀ flg, ∀ u ∈ fixedPart flg, ∀ rest, x = u ++ rest →
    FieldsFit flg g rest

theorem readsFrom_fields :
    ReadsFrom flg g 6 .flagsCheckExtra
      (extraPart extraCount flg * stringParts flg)
      (FieldsFit flg g) := by
  apply readsFrom_extra (by decide)
  apply nameState.readsFrom HeaderBuffer.name_ofRooms
    (by decide)
  apply commentState.readsFrom HeaderBuffer.comment_ofRooms
    (by decide)
  exact readsFrom_crc

/- Without flags nothing is behind the fixed part. -/
theorem readsFrom_start :
    ReadsFrom flg g 8 .flagsCheckEmpty
      (extraPart extraCount flg * stringParts flg)
      (FieldsFit flg g) := by
  intro b fuel p hPast hAlike
  have hStep :
      gzipHeaderStep b p .flagsCheckEmpty =
        some (.goOn p (if flg = 0 then .headerDone
          else .flagsCheckExtra)) := by
    simp only [gzipHeaderStep]
    rw [hPast.flg]
  rw [← Nat.add_assoc fuel 7 1,
    gzipHeaderLoop_goOn (by decide) hStep]
  have hReads := readsFrom_fields b (fuel + 1) p hPast hAlike
  rw [Nat.add_assoc, Nat.add_comm 1 6] at hReads
  by_cases hNone : flg = 0
  swap
  · rw [if_neg hNone]
    exact hReads
  subst hNone
  -- the checks change nothing either
  have hSame :
      gzipHeaderLoop b (fuel + 7) p .flagsCheckExtra =
        gzipHeaderLoop b (fuel + 7) p .headerDone := by
    rw [← Nat.add_assoc fuel 6 1,
      gzipHeaderLoop_noExtra hPast (by decide),
      ← Nat.add_assoc fuel 5 1]
    have hName := nameState.check_none hPast (by decide) b
      (fuel + 5)
    have hComment := commentState.check_none hPast
      (by decide) b (fuel + 4)
    have hCrc :
        gzipHeaderStep b p .flagsCheckFhcrc =
          some (.goOn p .flagsCheckFtext) := by
      simp only [gzipHeaderStep]
      rw [hPast.flg]
      rfl
    refine hName.trans (hComment.trans ?_)
    have hGo :=
      @gzipHeaderLoop_goOn b (fuel + 3) p p _ _ (by decide)
        hCrc
    refine hGo.trans ?_
    rw [← Nat.add_assoc fuel 2 1, Nat.add_right_comm,
      gzipHeaderLoop_ftext hPast]
    rfl
  rw [if_pos rfl, ← hSame]
  exact hReads

end Parts

------------------------------------------------------------
-- The Whole Header
------------------------------------------------------------

/- ID1, ID2 and CM. -/
def gzipMagic : List UInt8 := [0x1f, 0x8b, 0x08]

section Whole

variable {p : Prefx} {g : Option GzedcHeader}

theorem mem_fixedPart_iff
    {flg : UInt8} {u : List UInt8} :
    u ∈ fixedPart flg ↔
      u.length = 10 ∧ gzipMagic ++ [flg] <+: u := by
  constructor
  · intro hMem
    refine ⟨length_fixedPart hMem, ?_⟩
    rcases hMem with ⟨mtime, xfl, os, -, rfl⟩
    exact ⟨mtime ++ [xfl, os], by simp [gzipMagic]⟩
  · rintro ⟨hTen, t, rfl⟩
    have hSix : t.length = 6 := by
      rw [List.length_append] at hTen
      simp [gzipMagic] at hTen
      omega
    rcases List.length_eq_two.mp
      (show (t.drop 4).length = 2 by
        rw [List.length_drop, hSix]) with ⟨xfl, os, hTail⟩
    refine ⟨t.take 4, xfl, os, ?_, ?_⟩
    · rw [List.length_take, hSix]
      rfl
    · rw [← hTail, List.append_assoc, List.append_assoc,
        List.take_append_drop]
      rfl

theorem fixedPart_of_magic
    {u : List UInt8}
    (hTen : u.length = 10)
    (hMagic : gzipMagic <+: u) :
    u ∈ fixedPart (u.getD 3 0) := by
  rcases hMagic with ⟨t, rfl⟩
  rw [mem_fixedPart_iff]
  refine ⟨hTen, ?_⟩
  cases t with
  | nil => cases hTen
  | cons f t => exact ⟨t, by simp [gzipMagic]⟩

/- The state behind the fixed part, before it is looked at. -/
def Prefx.tenth (u : List UInt8) (p : Prefx) : Prefx :=
  { p with
    idx := 9
    bytes := p.bytes.store 0 u
    headerState := .headerStart }

/- The tenth byte of a header starts the loop. -/
theorem gzipBytes_tenth
    {u : List UInt8}
    (hTen : u.length = 10)
    (hIdx : p.idx = 0)
    (hState : p.headerState = .headerStart)
    (rest : List UInt8) :
    ∃ b,
      gzipBytes (u ++ rest) p =
        gzipResume rest
          (gzipHeaderLoop b 16 (p.tenth u) .headerStart) := by
  let nine := u.take 9
  have hNine : nine.length = 9 := by
    rw [List.length_take, hTen]
    rfl
  rcases List.length_eq_one_iff.mp
    (show (u.drop 9).length = 1 by
      rw [List.length_drop, hTen]) with ⟨b, hLast⟩
  have hU : u = nine ++ [b] := by
    rw [← hLast, List.take_append_drop]
  have hStore := store_store_append p.bytes 0 nine [b]
  rw [hNine, Nat.zero_add, ← hU] at hStore
  refine ⟨b, ?_⟩
  unfold Prefx.tenth
  rw [← hStore]
  conv_lhs => rw [hU]
  rw [List.append_assoc, List.singleton_append,
    gzipBytes_fixed (by rw [hIdx, hNine]),
    gzipBytes_cons, hIdx, hNine]
  unfold inflateRemGzipHeader Prefx.collect
  change gzipResume rest
    (if (9 : Nat) < 9 then _ else _) = _
  rw [if_neg (by decide)]
  change gzipResume rest
    (gzipHeaderLoop b 16 _ p.headerState) = _
  rw [hState]
  rfl

theorem Prefx.bytes_tenth
    {u : List UInt8}
    (hTen : u.length = 10)
    (p : Prefx)
    {i : Nat}
    (hLt : i < 10) :
    (p.tenth u).bytes i = u.getD i 0 := by
  change p.bytes.store 0 u i = _
  rw [store_inside _ (Nat.zero_le _) (by omega),
    Nat.sub_zero]

/- The parser stays at the fixed part of another format. -/
structure Rejects (p : Prefx) : Prop where
  state : p.headerState = .headerStart
  ten : 10 ≤ p.idx
  magic :
    p.bytes 0 ≠ 0x1f ∨ p.bytes 1 ≠ 0x8b ∨
      p.bytes 2 ≠ 0x08

/- What the parser makes of the bytes. -/
structure ReadsHeader
    (p : Prefx)
    (g : Option GzedcHeader)
    (l : List UInt8)
    (out : Option (HdrRc × Prefx × List UInt8)) : Prop where
  done :
    ∀ w ∈ readHeaders, ∀ rest, l = w ++ rest →
      HeaderFits g l → ∃ q, out = some (.ok, q, rest)
  more :
    (l.length < 10 ∨ gzipMagic <+: l) →
      ¬Ahead readHeaders l → HeaderFits g l →
        ∃ q, out = some (.needMoreData, q, [])
  refused : ¬HeaderFits g l → Refused out
  error :
    10 ≤ l.length → ¬gzipMagic <+: l →
      out =
          some (.error, (p.tenth (l.take 10)).next,
            l.drop 10) ∧
        Rejects (p.tenth (l.take 10)).next

/- The fixed part of a word that is ahead. -/
theorem readHeaders_split
    {w : List UInt8}
    (hMem : w ∈ readHeaders) :
    ∃ flg, ∃ u ∈ fixedPart flg, ∃ v,
      v ∈ extraPart extraCount flg * stringParts flg ∧
        w = u ++ v := by
  rcases hMem with ⟨flg, hMem⟩
  rcases Language.mem_mul.mp hMem with ⟨u, hu, v, hv, rfl⟩
  exact ⟨flg, u, hu, v, hv, rfl⟩

theorem gzipBytes_reads
    (hIdx : p.idx = 0)
    (hState : p.headerState = .headerStart)
    (hAlike : Alike p.gzipHead g)
    (l : List UInt8) :
    ReadsHeader p g l (gzipBytes l p) := by
  by_cases hShort : l.length < 10
  · have hNone : ∀ {flg u rest},
        u ∈ fixedPart flg → l ≠ u ++ rest := by
      rintro flg u rest hu rfl
      rw [List.length_append, length_fixedPart hu] at hShort
      omega
    refine ⟨?_, ?_, ?_, fun hLe => by omega⟩
    · intro w hw rest hEq
      rcases readHeaders_split hw with
        ⟨flg, u, hu, v, -, rfl⟩
      rw [List.append_assoc] at hEq
      exact (hNone hu hEq).elim
    · intro _ _ _
      have hMore := @gzipBytes_fixed l [] p (by omega)
      rw [List.append_nil] at hMore
      exact ⟨_, hMore⟩
    · intro hNot
      exact (hNot fun flg u hu rest hEq =>
        (hNone hu hEq).elim).elim
  -- the tenth byte is there
  have hTen : (l.take 10).length = 10 := by
    rw [List.length_take]
    omega
  have hSplit := List.take_append_drop 10 l
  rcases gzipBytes_tenth hTen hIdx hState (l.drop 10) with
    ⟨b, hRun⟩
  rw [hSplit] at hRun
  let q : Prefx := p.tenth (l.take 10)
  have hBytes : ∀ i < 10,
      q.bytes i = (l.take 10).getD i 0 :=
    fun i hLt => p.bytes_tenth hTen hLt
  have hPrefix : ∀ {v : List UInt8}, v.length ≤ 10 →
      (v <+: l ↔ v <+: l.take 10) := by
    intro v hLe
    refine ⟨fun h => ?_, fun h =>
      h.trans (List.take_prefix 10 l)⟩
    exact List.prefix_of_prefix_length_le h
      (List.take_prefix 10 l) (by omega)
  by_cases hMagic : gzipMagic <+: l
  · have hu := fixedPart_of_magic hTen
      ((hPrefix (by decide)).mp hMagic)
    have hFlg : q.bytes 3 = (l.take 10).getD 3 0 :=
      hBytes 3 (by decide)
    have hStep :
        gzipHeaderStep b q .headerStart =
          some (.goOn
            (q.setHead fun r =>
              { r with
                time :=
                  (q.bytes 4).toNat +
                    (q.bytes 5).toNat * 2 ^ 8 +
                    (q.bytes 6).toNat * 2 ^ 16 +
                    (q.bytes 7).toNat * 2 ^ 24
                xflags := q.bytes 8
                os := q.bytes 9 })
            .flagsCheckEmpty) := by
      rcases hMagic with ⟨t, rfl⟩
      simp only [gzipHeaderStep]
      rw [hBytes 0 (by decide), hBytes 1 (by decide),
        hBytes 2 (by decide), if_neg]
      simp [gzipMagic]
    rw [gzipHeaderLoop_goOn (by decide) hStep] at hRun
    let q' : Prefx := q.setHead fun r =>
      { r with
        time :=
          (q.bytes 4).toNat + (q.bytes 5).toNat * 2 ^ 8 +
            (q.bytes 6).toNat * 2 ^ 16 +
            (q.bytes 7).toNat * 2 ^ 24
        xflags := q.bytes 8
        os := q.bytes 9 }
    have hAlike' : Alike q'.gzipHead g := by
      refine Eq.trans ?_ hAlike
      change (p.gzipHead.map _).map _ = _
      rw [Option.map_map]
      rfl
    have hReads := readsFrom_start b 7 q'
      ⟨Nat.le_refl 9, hFlg⟩ hAlike'
    have hFits :
        HeaderFits g l →
          FieldsFit ((l.take 10).getD 3 0) g (l.drop 10) :=
      fun hFit => hFit _ _ hu _ hSplit.symm
    have hOnly : ∀ {flg u rest},
        u ∈ fixedPart flg → l = u ++ rest →
          flg = (l.take 10).getD 3 0 ∧ u = l.take 10 ∧
            rest = l.drop 10 := by
      rintro flg u rest hMem rfl
      have hLen := length_fixedPart hMem
      rw [List.take_left' hLen, List.drop_left' hLen]
      refine ⟨?_, rfl, rfl⟩
      rcases (mem_fixedPart_iff.mp hMem).2 with ⟨t, rfl⟩
      simp [gzipMagic]
    rw [hRun]
    refine ⟨?_, ?_, ?_, fun _ hNot => (hNot hMagic).elim⟩
    · intro w hw rest hEq hFit
      rcases readHeaders_split hw with
        ⟨flg, u, hMem, v, hv, rfl⟩
      rw [List.append_assoc] at hEq
      rcases hOnly hMem hEq with ⟨rfl, rfl, hRest⟩
      have hBehind := hFits hFit
      rw [← hRest] at hBehind ⊢
      exact hReads.done v hv rest hBehind
    · intro _ hNone hFit
      apply hReads.more _ _ (hFits hFit)
      rintro ⟨v, hv, hPre⟩
      refine hNone ⟨l.take 10 ++ v,
        ⟨_, Language.append_mem_mul hu hv⟩, ?_⟩
      conv_rhs => rw [← hSplit]
      exact List.prefix_append_right_inj _ |>.mpr hPre
    · intro hNot
      apply hReads.refused
      intro hBehind
      apply hNot
      intro flg u hMem rest hEq
      rcases hOnly hMem hEq with ⟨rfl, rfl, rfl⟩
      exact hBehind
  · have hNoMagic : ¬gzipMagic <+: l.take 10 :=
      fun h => hMagic ((hPrefix (by decide)).mpr h)
    have hBad :
        q.bytes 0 ≠ 0x1f ∨ q.bytes 1 ≠ 0x8b ∨
          q.bytes 2 ≠ 0x08 := by
      rw [hBytes 0 (by decide), hBytes 1 (by decide),
        hBytes 2 (by decide)]
      by_contra hSame
      push Not at hSame
      rcases hSame with ⟨h0, h1, h2⟩
      apply hNoMagic
      generalize l.take 10 = u at *
      rcases u with _ | ⟨x, _ | ⟨y, _ | ⟨z, u⟩⟩⟩
      · cases hTen
      · cases hTen
      · cases hTen
      · simp only [List.getD_cons_zero,
          List.getD_cons_succ] at h0 h1 h2
        subst h0 h1 h2
        exact ⟨u, rfl⟩
    have hStep :
        gzipHeaderStep b q .headerStart =
          some (.refuse q) := by
      simp only [gzipHeaderStep]
      rw [if_pos hBad]
    rw [gzipHeaderLoop_refuse (by decide) hStep] at hRun
    have hError :
        gzipBytes l p = some (.error, q.next, l.drop 10) :=
      hRun
    rw [hError]
    have hNone : ∀ {flg u rest},
        u ∈ fixedPart flg → l ≠ u ++ rest := by
      rintro flg u rest hMem rfl
      exact hMagic
        (((List.prefix_append _ _).trans
          (mem_fixedPart_iff.mp hMem).2).trans
            (List.prefix_append _ _))
    have hReject : Rejects q.next :=
      ⟨rfl, Nat.le_refl 10, hBad⟩
    refine ⟨?_, ?_, ?_, fun _ _ => ⟨rfl, hReject⟩⟩
    · intro w hw rest hEq
      rcases readHeaders_split hw with
        ⟨flg, u, hu, v, -, rfl⟩
      rw [List.append_assoc] at hEq
      exact (hNone hu hEq).elim
    · intro hEither
      exact (hEither.elim hShort hMagic).elim
    · intro hNot
      exact (hNot fun flg u hu rest hEq =>
        (hNone hu hEq).elim).elim

/- Where all fits, there is always an answer. -/
theorem ReadsHeader.isSome
    {l : List UInt8}
    {out : Option (HdrRc × Prefx × List UInt8)}
    (hReads : ReadsHeader p g l out)
    (hFits : HeaderFits g l) :
    out ≠ none := by
  intro hNone
  by_cases hAhead : Ahead readHeaders l
  · rcases hAhead with ⟨w, hw, rest, rfl⟩
    rcases hReads.done w hw rest rfl hFits with ⟨q, hOut⟩
    rw [hNone] at hOut
    cases hOut
  · by_cases hMagic : l.length < 10 ∨ gzipMagic <+: l
    · rcases hReads.more hMagic hAhead hFits with ⟨q, hOut⟩
      rw [hNone] at hOut
      cases hOut
    · rw [not_or, Nat.not_lt] at hMagic
      have hOut := (hReads.error hMagic.1 hMagic.2).1
      rw [hNone] at hOut
      cases hOut

/- Nothing has to fit where no structure is registered. -/
theorem headerFits_none (x : List UInt8) :
    HeaderFits none x := by
  intro flg u _ rest _
  refine ⟨fun _ _ _ _ _ => HeaderBuffer.fits_none _,
    fun _ _ _ _ => ⟨fun _ => HeaderBuffer.fits_none _,
      fun _ _ _ _ => ⟨fun _ => HeaderBuffer.fits_none _,
        fun _ _ _ _ => trivial⟩⟩⟩

/- One more byte is rejected as well. -/
theorem Rejects.byte
    (hRejects : Rejects p)
    (b : UInt8)
    (l : List UInt8) :
    gzipBytes (b :: l) p =
        some (.error, (p.collect b).next, l) ∧
      Rejects (p.collect b).next := by
  have hTen := hRejects.ten
  have hIdx := (p.collect_keeps b).idx
  have hSame : (p.collect b).headerState = p.headerState ∧
      ∀ i < 3, (p.collect b).bytes i = p.bytes i := by
    unfold Prefx.collect
    split
    · exact ⟨rfl, fun i hLt => store_outside _ (by omega)⟩
    · exact ⟨rfl, fun _ _ => rfl⟩
  have hBad :
      (p.collect b).bytes 0 ≠ 0x1f ∨
        (p.collect b).bytes 1 ≠ 0x8b ∨
        (p.collect b).bytes 2 ≠ 0x08 := by
    rw [hSame.2 0 (by decide), hSame.2 1 (by decide),
      hSame.2 2 (by decide)]
    exact hRejects.magic
  have hStep :
      gzipHeaderStep b (p.collect b) .headerStart =
        some (.refuse (p.collect b)) := by
    simp only [gzipHeaderStep]
    rw [if_pos hBad]
  refine ⟨?_, hSame.1.trans hRejects.state, ?_, hBad⟩
  · rw [gzipBytes_past hTen, hRejects.state,
      gzipHeaderLoop_refuse (by decide) hStep]
    rfl
  · change 10 ≤ (p.collect b).idx + 1
    omega

end Whole

end Zedc
