import GenWqe.Formats.Grammar
import GenWqe.Lib.Runs

/-
  `inf` of `genwqe_gzip`, which decompresses one member after
  the other out of a buffer and sets the position of the file
  behind the last one.

  Key definitions include:
    * `gzipMembers`
    * `Inflates`
    * `InfState`, `infFread`, `infInflate`, `InfStep`
    * `FillsAtEnd`, `LeavesAtEnd`

  Main results:
    * `accounted_step`
    * `leavesAtEnd_iff`
    * `leavesAtEnd_twoLetters`,
      `not_leavesAtEnd_letterMember`
-/

------------------------------------------------------------
-- The Decoder
------------------------------------------------------------

namespace Tools

open Zedc Words

/- CRC32 and ISIZE. -/
def gzipTrailers : Language UInt8 := {w | w.length = 8}

/- The members of RFC 1952 around given compressed data. -/
def gzipMembers (deflated : Language UInt8) :
    Language UInt8 :=
  rfcHeaders * (deflated * gzipTrailers)

theorem length_gzipMember
    {deflated : Language UInt8}
    {w : List UInt8}
    (hMem : w ∈ gzipMembers deflated) : 0 < w.length := by
  rcases Language.mem_mul.mp hMem with ⟨u, hu, v, _, rfl⟩
  rcases hu with ⟨flg, hu⟩
  rcases Language.mem_mul.mp hu with ⟨a, ha, b, _, rfl⟩
  rw [List.length_append, List.length_append,
    length_fixedPart ha]
  omega

/- What `inflate` and `inf` return. -/
inductive Ret
  | ok
  | streamEnd
  | needDict
  | errno
  | streamError
  | dataError
  | memError
  | bufError
  deriving DecidableEq, Repr

/-
  What a call of `inflate` returns, how many bytes it takes
  from `next_in`, and which it puts at `next_out`.
-/
structure Answer where
  ret : Ret
  took : Nat
  out : List UInt8

/-
  A decoder has taken a part of a member, or it is behind the
  end of one.
-/
inductive Decoder
  | within (part : List UInt8)
  | ended

/-
  The calls that a correct `inflate` answers: it goes on until
  there is no input or no room, ends behind a member, and then
  keeps returning `Z_STREAM_END`. How much it puts out in
  which call is left open.
-/
inductive Inflates (deflated : Language UInt8) :
    Decoder → List UInt8 → Nat → Answer → Decoder → Prop
  | goesOn
      {part input : List UInt8}
      {room : Nat}
      {a : Answer} :
      a.ret = .ok ∨ a.ret = .bufError →
      a.took ≤ input.length →
      a.out.length ≤ room →
      a.took = input.length ∨ a.out.length = room →
      Inflates deflated (.within part) input room a
        (.within (part ++ input.take a.took))
  | ends
      {part input : List UInt8}
      {room : Nat}
      {a : Answer} :
      a.ret = .streamEnd →
      a.took ≤ input.length →
      a.out.length ≤ room →
      part ++ input.take a.took ∈ gzipMembers deflated →
      Inflates deflated (.within part) input room a .ended
  | stays
      {input : List UInt8}
      {room : Nat} :
      Inflates deflated .ended input room ⟨.streamEnd, 0, []⟩
        .ended
  | fails
      {input : List UInt8}
      {room : Nat}
      {a : Answer}
      {d d' : Decoder} :
      a.ret = .needDict ∨ a.ret = .streamError ∨
        a.ret = .dataError ∨ a.ret = .memError →
      Inflates deflated d input room a d'

------------------------------------------------------------
-- The Function
------------------------------------------------------------

/- In front of `fread`, at `__more_inf`, or left. -/
inductive Point
  | fill
  | more
  | aborted
  | returned (ret : Ret)

/-
  The two files, the stream with the decoder behind it, and
  the variables of `inf`. `avail_in` is the length of what is
  left at `next_in`.
-/
structure InfState where
  point : Point
  source : List UInt8
  offset : Nat
  dest : List UInt8
  nextIn : List UInt8
  totalIn : Nat
  dec : Decoder
  ret : Ret
  startOffs : Nat
  readOffs : Nat

/- `inf` is called on a stream that was reset. -/
def infEnter
    (source dest : List UInt8) (offset : Nat) : InfState :=
  { point := .fill
    source := source
    offset := offset
    dest := dest
    nextIn := []
    totalIn := 0
    dec := .within []
    ret := .ok
    startOffs := offset
    readOffs := 0 }

/- `inflateReset` -/
def InfState.inflateReset (s : InfState) : InfState :=
  { s with totalIn := 0, dec := .within [] }

/- Behind the outer loop. -/
def infLeave (s : InfState) : InfState :=
  if 16 * 1024 < s.nextIn.length then
    { s.inflateReset with point := .more }
  else
    let startOffs := s.startOffs + s.readOffs
    let s := { s with startOffs, offset := startOffs }
    { s.inflateReset with point := .returned s.ret }

/- The outer loop up to `__more_inf`. -/
def infFread
    (chunkI : Nat)
    (failed : Bool)
    (s : InfState) : InfState :=
  let input := (s.source.drop s.offset).take chunkI
  let s :=
    { s with
      nextIn := input, offset := s.offset + input.length }
  if failed then { s with point := .returned .errno }
  else if input.length = 0 then infLeave s
  else { s with point := .more }

/- The return values for which `inf` returns at once. -/
def faultOf : Ret → Option Ret
  | .needDict => some .dataError
  | .dataError => some .dataError
  | .memError => some .memError
  | _ => none

/- One turn of the inner loop. -/
def infInflate
    (chunkO : Nat)
    (a : Answer)
    (dec : Decoder)
    (failed : Bool)
    (s : InfState) : InfState :=
  let availOut := chunkO - a.out.length
  let s :=
    { s with
      nextIn := s.nextIn.drop a.took
      totalIn := s.totalIn + a.took
      dec := dec
      ret := a.ret }
  if a.ret = .streamError then { s with point := .aborted }
  else
    match faultOf a.ret with
    | some ret => { s with point := .returned ret }
    | none =>
        let s :=
          if a.ret = .streamEnd then
            { s with readOffs := s.readOffs + s.totalIn }
          else s
        let s := { s with dest := s.dest ++ a.out }
        if failed then { s with point := .returned .errno }
        else if availOut = 0 then { s with point := .more }
        else if a.ret = .streamEnd then infLeave s
        else { s with point := .fill }

/- The calls, and whether reading or writing failed. -/
inductive Event
  | fread (failed : Bool)
  | inflate (a : Answer) (failed : Bool)

inductive InfStep
    (deflated : Language UInt8)
    (chunkI chunkO : Nat) :
    InfState → Event → InfState → Prop
  | fread
      {s : InfState}
      {failed : Bool} :
      s.point = .fill →
      InfStep deflated chunkI chunkO s (.fread failed)
        (infFread chunkI failed s)
  | inflate
      {s : InfState}
      {a : Answer}
      {dec : Decoder}
      {failed : Bool} :
      s.point = .more →
      Inflates deflated s.dec s.nextIn chunkO a dec →
      InfStep deflated chunkI chunkO s (.inflate a failed)
        (infInflate chunkO a dec failed s)

------------------------------------------------------------
-- The Position
------------------------------------------------------------

/- How many bytes the decoder took. -/
def Event.took : Event → Nat
  | .fread _ => 0
  | .inflate a _ => a.took

def consumed (trace : List Event) : Nat :=
  (trace.map Event.took).sum

@[simp] theorem consumed_concat
    (trace : List Event)
    (e : Event) :
    consumed (trace ++ [e]) = consumed trace + e.took := by
  simp [consumed]

/-
  The call that ends a member fills the output up to its last
  byte.
-/
def FillsAtEnd (chunkO : Nat) : Event → Prop
  | .fread _ => False
  | .inflate a _ =>
      a.ret = .streamEnd ∧ a.out.length = chunkO

/-
  What was taken are whole members, and the file is right
  behind them.
-/
def LeavesAtEnd
    (deflated : Language UInt8)
    (source : List UInt8)
    (start : Nat)
    (trace : List Event)
    (s : InfState) : Prop :=
  ∃ members : List (List UInt8),
    (∀ m ∈ members, m ∈ gzipMembers deflated) ∧
    members.flatten <+: source.drop start ∧
    consumed trace = members.flatten.length ∧
    s.offset = start + members.flatten.length

section Account

variable {deflated : Language UInt8}
variable {chunkI chunkO start : Nat}
variable {source : List UInt8}
variable {trace : List Event}

/-
  The members that were taken, the part of the next one, and
  what `read_offs` says about them.
-/
structure Booked
    (deflated : Language UInt8)
    (chunkO : Nat)
    (source : List UInt8)
    (start : Nat)
    (trace : List Event)
    (s : InfState)
    (members : List (List UInt8))
    (part : List UInt8) : Prop where
  file : s.source = source
  startOffs : s.startOffs = start
  whole : ∀ m ∈ members, m ∈ gzipMembers deflated
  bytes :
    source.drop start =
      members.flatten ++ part ++ s.nextIn ++
        source.drop s.offset
  offset :
    s.offset =
      start + members.flatten.length + part.length +
        s.nextIn.length
  took :
    consumed trace = members.flatten.length + part.length
  atLeast : members.flatten.length ≤ s.readOffs

/- The decoder is within a member. -/
structure Inside
    (chunkO : Nat)
    (trace : List Event)
    (s : InfState)
    (members : List (List UInt8))
    (part : List UInt8) : Prop where
  dec : s.dec = .within part
  totalIn : s.totalIn = part.length
  exact :
    s.readOffs = members.flatten.length ↔
      ∀ e ∈ trace, ¬ FillsAtEnd chunkO e

/- It was called again behind the end of one. -/
structure Behind
    (chunkO : Nat)
    (trace : List Event)
    (s : InfState)
    (part : List UInt8) : Prop where
  dec : s.dec = .ended
  part : part = []
  totalIn : 0 < s.totalIn
  filled : ∃ e ∈ trace, FillsAtEnd chunkO e

/- What holds at each point. -/
def Accounted
    (deflated : Language UInt8)
    (chunkO : Nat)
    (source : List UInt8)
    (start : Nat)
    (trace : List Event)
    (s : InfState) : Prop :=
  match s.point with
  | .fill =>
      s.nextIn = [] ∧ s.ret ≠ .streamEnd ∧
      ∃ members part,
        Booked deflated chunkO source start trace s members
          part ∧
        Inside chunkO trace s members part
  | .more =>
      ∃ members part,
        Booked deflated chunkO source start trace s members
          part ∧
        (Inside chunkO trace s members part ∨
          Behind chunkO trace s part)
  | .returned .streamEnd =>
      ∃ members : List (List UInt8),
        (∀ m ∈ members, m ∈ gzipMembers deflated) ∧
        members.flatten <+: source.drop start ∧
        consumed trace = members.flatten.length ∧
        s.offset = start + s.readOffs ∧
        (s.readOffs = members.flatten.length ↔
          ∀ e ∈ trace, ¬ FillsAtEnd chunkO e)
  | _ => True

theorem accounted_enter (dest : List UInt8) :
    Accounted deflated chunkO source start []
      (infEnter source dest start) := by
  refine ⟨rfl, nofun, [], [], ?_, ?_⟩
  · exact
      { file := rfl
        startOffs := rfl
        whole := nofun
        bytes := rfl
        offset := rfl
        took := rfl
        atLeast := Nat.zero_le _ }
  · exact
      { dec := rfl
        totalIn := rfl
        exact := ⟨fun _ => nofun, fun _ => rfl⟩ }

/- What is read, and what is left of the file. -/
theorem take_append_drop_length
    (l : List UInt8)
    (n : Nat) :
    l.take n ++ l.drop (l.take n).length = l := by
  rw [List.length_take]
  rcases Nat.le_total n l.length with hLe | hLe
  · rw [Nat.min_eq_left hLe, List.take_append_drop]
  · rw [Nat.min_eq_right hLe, List.drop_length,
      List.take_of_length_le hLe, List.append_nil]

/- An event that fills nothing. -/
theorem noFill_concat
    {e : Event}
    (hNot : ¬ FillsAtEnd chunkO e) :
    (∀ e' ∈ trace ++ [e], ¬ FillsAtEnd chunkO e') ↔
      ∀ e' ∈ trace, ¬ FillsAtEnd chunkO e' := by
  constructor
  · intro hAll e' hE
    exact hAll e' (List.mem_append_left _ hE)
  · intro hAll e' hE
    rcases List.mem_append.mp hE with hE | hE
    · exact hAll e' hE
    · cases List.mem_singleton.mp hE
      exact hNot

/- Behind the outer loop, at the end of a member. -/
theorem accounted_leave
    {s : InfState}
    {members : List (List UInt8)}
    (hBooked :
      Booked deflated chunkO source start trace s members [])
    (hExact :
      s.readOffs = members.flatten.length ↔
        ∀ e ∈ trace, ¬ FillsAtEnd chunkO e) :
    Accounted deflated chunkO source start trace
      (infLeave s) := by
  unfold infLeave
  split
  · refine ⟨members, [], ?_, Or.inl ?_⟩
    · exact
        { file := hBooked.file
          startOffs := hBooked.startOffs
          whole := hBooked.whole
          bytes := hBooked.bytes
          offset := hBooked.offset
          took := hBooked.took
          atLeast := hBooked.atLeast }
    · exact ⟨rfl, rfl, hExact⟩
  · have hLeft :
        s.startOffs + s.readOffs = start + s.readOffs := by
      rw [hBooked.startOffs]
    have hPrefix : members.flatten <+: source.drop start := by
      rw [hBooked.bytes, List.append_nil, List.append_assoc]
      exact List.prefix_append _ _
    have hTook := hBooked.took
    unfold Accounted InfState.inflateReset
    dsimp only
    cases s.ret <;> try trivial
    exact ⟨members, hBooked.whole, hPrefix, hTook, hLeft,
      hExact⟩

/- `fread` puts the next bytes behind what is left. -/
theorem accounted_fread
    {s : InfState}
    {failed : Bool}
    (hPoint : s.point = .fill)
    (hPast :
      Accounted deflated chunkO source start trace s) :
    Accounted deflated chunkO source start
      (trace ++ [.fread failed])
      (infFread chunkI failed s) := by
  unfold Accounted at hPast
  rw [hPoint] at hPast
  rcases hPast with
    ⟨hNone, hRet, members, part, hBooked, hInside⟩
  have hExact :
      s.readOffs = members.flatten.length ↔
        ∀ e ∈ trace ++ [.fread failed],
          ¬ FillsAtEnd chunkO e := by
    rw [noFill_concat (e := .fread failed) id]
    exact hInside.exact
  unfold infFread
  cases failed with
  | true => trivial
  | false =>
      simp only [Bool.false_eq_true, if_false]
      split
      · unfold infLeave
        dsimp only
        split
        · omega
        · unfold Accounted InfState.inflateReset
          dsimp only
          cases hSame : s.ret <;> trivial
      · refine ⟨members, part, ?_, Or.inl ?_⟩
        · exact
            { file := hBooked.file
              startOffs := hBooked.startOffs
              whole := hBooked.whole
              bytes := by
                have hBytes := hBooked.bytes
                rw [hNone, List.append_nil] at hBytes
                rw [hBytes, hBooked.file, ← List.drop_drop,
                  List.append_assoc _ (List.take _ _),
                  take_append_drop_length]
              offset := by
                have hOffset := hBooked.offset
                rw [hNone] at hOffset
                simpa using hOffset
              took := by
                rw [consumed_concat]
                exact hBooked.took
              atLeast := hBooked.atLeast }
        · exact ⟨hInside.dec, hInside.totalIn, hExact⟩

/- What the decoder takes is a longer part of the member. -/
theorem Booked.take
    {s : InfState}
    {members : List (List UInt8)}
    {part : List UInt8}
    (hBooked :
      Booked deflated chunkO source start trace s members
        part)
    (a : Answer)
    (failed : Bool)
    (hTook : a.took ≤ s.nextIn.length)
    (point : Point)
    (dest : List UInt8)
    (totalIn : Nat)
    (dec : Decoder)
    (ret : Ret) :
    Booked deflated chunkO source start
      (trace ++ [.inflate a failed])
      { s with
        point := point
        dest := dest
        nextIn := s.nextIn.drop a.took
        totalIn := totalIn
        dec := dec
        ret := ret }
      members (part ++ s.nextIn.take a.took) where
  file := hBooked.file
  startOffs := hBooked.startOffs
  whole := hBooked.whole
  bytes := by
    rw [hBooked.bytes]
    have hCut := List.take_append_drop a.took s.nextIn
    conv_lhs => rw [← hCut]
    simp only [List.append_assoc]
  offset := by
    show s.offset = _
    rw [hBooked.offset, List.length_append, List.length_take,
      List.length_drop]
    omega
  took := by
    rw [consumed_concat, hBooked.took, List.length_append,
      List.length_take]
    show _ + a.took = _
    omega
  atLeast := hBooked.atLeast

/- The decoder goes on within a member. -/
theorem accounted_goesOn
    {s : InfState}
    {members : List (List UInt8)}
    {part : List UInt8}
    {a : Answer}
    {failed : Bool}
    (hBooked :
      Booked deflated chunkO source start trace s members
        part)
    (hInside : Inside chunkO trace s members part)
    (hRet : a.ret = .ok ∨ a.ret = .bufError)
    (hTook : a.took ≤ s.nextIn.length)
    (hRoom : a.out.length ≤ chunkO)
    (hStop :
      a.took = s.nextIn.length ∨ a.out.length = chunkO) :
    Accounted deflated chunkO source start
      (trace ++ [.inflate a failed])
      (infInflate chunkO a
        (.within (part ++ s.nextIn.take a.took)) failed
        s) := by
  have hGoes :
      a.ret ≠ .streamEnd ∧ a.ret ≠ .streamError ∧
        faultOf a.ret = none := by
    rcases hRet with hRet | hRet <;> rw [hRet] <;>
      exact ⟨nofun, nofun, rfl⟩
  have hExact :
      s.readOffs = members.flatten.length ↔
        ∀ e ∈ trace ++ [.inflate a failed],
          ¬ FillsAtEnd chunkO e := by
    rw [noFill_concat (e := .inflate a failed)
      (fun hFills => hGoes.1 hFills.1)]
    exact hInside.exact
  have hTotal :
      s.totalIn + a.took =
        (part ++ s.nextIn.take a.took).length := by
    rw [List.length_append, List.length_take,
      Nat.min_eq_left hTook, hInside.totalIn]
  have hTaken := hBooked.take a failed hTook
  unfold infInflate
  simp only [hGoes.2.1, hGoes.2.2, hGoes.1, if_false]
  split
  · trivial
  · split
    · exact ⟨members, _, hTaken _ _ _ _ _,
        Or.inl ⟨rfl, hTotal, hExact⟩⟩
    · have hNone : s.nextIn.drop a.took = [] := by
        apply List.drop_eq_nil_of_le
        omega
      exact ⟨hNone, hGoes.1, members, _, hTaken _ _ _ _ _,
        ⟨rfl, hTotal, hExact⟩⟩

/- A member is complete. -/
theorem Booked.close
    {s : InfState}
    {members : List (List UInt8)}
    {part : List UInt8}
    (hBooked :
      Booked deflated chunkO source start trace s members
        part)
    (hMember : part ∈ gzipMembers deflated)
    (readOffs : Nat)
    (hAtLeast :
      members.flatten.length + part.length ≤ readOffs) :
    Booked deflated chunkO source start trace
      { s with readOffs := readOffs } (members ++ [part])
      [] where
  file := hBooked.file
  startOffs := hBooked.startOffs
  whole := by
    intro m hM
    rcases List.mem_append.mp hM with hM | hM
    · exact hBooked.whole m hM
    · cases List.mem_singleton.mp hM
      exact hMember
  bytes := by
    rw [hBooked.bytes]
    simp
  offset := by
    show s.offset = _
    rw [hBooked.offset]
    simp [Nat.add_assoc]
  took := by
    rw [hBooked.took]
    simp
  atLeast := by
    simpa using hAtLeast

/- The decoder comes to the end of a member. -/
theorem accounted_ends
    {s : InfState}
    {members : List (List UInt8)}
    {part : List UInt8}
    {a : Answer}
    {failed : Bool}
    (hBooked :
      Booked deflated chunkO source start trace s members
        part)
    (hInside : Inside chunkO trace s members part)
    (hRet : a.ret = .streamEnd)
    (hTook : a.took ≤ s.nextIn.length)
    (hRoom : a.out.length ≤ chunkO)
    (hMember :
      part ++ s.nextIn.take a.took ∈ gzipMembers deflated) :
    Accounted deflated chunkO source start
      (trace ++ [.inflate a failed])
      (infInflate chunkO a .ended failed s) := by
  have hTotal :
      s.totalIn + a.took =
        (part ++ s.nextIn.take a.took).length := by
    rw [List.length_append, List.length_take,
      Nat.min_eq_left hTook, hInside.totalIn]
  have hLong := length_gzipMember hMember
  have hAtLeast := hBooked.atLeast
  have hClosed := fun point dest totalIn dec ret =>
    (hBooked.take a failed hTook point dest totalIn dec
      ret).close hMember (s.readOffs + (s.totalIn + a.took))
      (by omega)
  unfold infInflate
  simp only [hRet, faultOf, if_true, reduceCtorEq, if_false]
  split
  · trivial
  · split
    · refine ⟨_, _, hClosed _ _ _ _ _, Or.inr ?_⟩
      refine ⟨rfl, rfl, ?_, _, List.mem_concat_self, hRet, ?_⟩
      · show 0 < s.totalIn + a.took
        omega
      · omega
    · refine accounted_leave (hClosed _ _ _ _ _) ?_
      rw [noFill_concat (e := .inflate a failed)
        (fun hFills => by
          have hFilled := hFills.2
          omega), ← hInside.exact]
      show s.readOffs + (s.totalIn + a.took) = _ ↔ _
      rw [hTotal]
      simp

/- It is called once more behind the end of one. -/
theorem accounted_stays
    {s : InfState}
    {members : List (List UInt8)}
    {part : List UInt8}
    {failed : Bool}
    (hBooked :
      Booked deflated chunkO source start trace s members
        part)
    (hBehind : Behind chunkO trace s part) :
    Accounted deflated chunkO source start
      (trace ++ [.inflate ⟨.streamEnd, 0, []⟩ failed])
      (infInflate chunkO ⟨.streamEnd, 0, []⟩ .ended failed
        s) := by
  rcases hBehind with ⟨_, rfl, hTotal, e, hE, hFills⟩
  have hTaken :=
    hBooked.take ⟨.streamEnd, 0, []⟩ failed (Nat.zero_le _)
  have hAtLeast := hBooked.atLeast
  have hFilled :
      ∃ e ∈ trace ++
          [.inflate ⟨.streamEnd, 0, []⟩ failed],
        FillsAtEnd chunkO e :=
    ⟨e, List.mem_append_left _ hE, hFills⟩
  have hMore := fun point dest totalIn dec ret =>
    (show Booked deflated chunkO source start
        (trace ++ [.inflate ⟨.streamEnd, 0, []⟩ failed])
        { s with
          point := point
          dest := dest
          nextIn := s.nextIn.drop 0
          totalIn := totalIn
          dec := dec
          ret := ret
          readOffs := s.readOffs + (s.totalIn + 0) }
        members [] from
      { file := hBooked.file
        startOffs := hBooked.startOffs
        whole := hBooked.whole
        bytes := (hTaken point dest totalIn dec ret).bytes
        offset := (hTaken point dest totalIn dec ret).offset
        took := (hTaken point dest totalIn dec ret).took
        atLeast := by
          show _ ≤ s.readOffs + (s.totalIn + 0)
          omega })
  unfold infInflate
  simp only [faultOf, if_true, reduceCtorEq, if_false]
  split
  · trivial
  · split
    · refine ⟨_, _, hMore _ _ _ _ _, Or.inr ?_⟩
      refine ⟨rfl, rfl, ?_, hFilled⟩
      show 0 < s.totalIn + 0
      omega
    · refine accounted_leave (hMore _ _ _ _ _) ?_
      rcases hFilled with ⟨e, hE, hFills⟩
      constructor
      · intro hSame
        change s.readOffs + (s.totalIn + 0) = _ at hSame
        omega
      · intro hNone
        exact absurd hFills (hNone e hE)

/- Every step keeps the account. -/
theorem accounted_step
    {s s' : InfState}
    {e : Event}
    (hPast :
      Accounted deflated chunkO source start trace s)
    (hStep : InfStep deflated chunkI chunkO s e s') :
    Accounted deflated chunkO source start (trace ++ [e])
      s' := by
  cases hStep with
  | fread hPoint => exact accounted_fread hPoint hPast
  | @inflate a dec failed hPoint hDec =>
      unfold Accounted at hPast
      rw [hPoint] at hPast
      rcases hPast with ⟨members, part, hBooked, hWhere⟩
      generalize hD : s.dec = d at hDec
      generalize hIn : s.nextIn = input at hDec
      cases hDec with
      | goesOn hRet hTook hRoom hStop =>
          subst hIn
          rcases hWhere with hInside | hBehind
          · cases hD.symm.trans hInside.dec
            exact accounted_goesOn hBooked hInside hRet hTook
              hRoom hStop
          · cases hD.symm.trans hBehind.dec
      | ends hRet hTook hRoom hMember =>
          subst hIn
          rcases hWhere with hInside | hBehind
          · cases hD.symm.trans hInside.dec
            exact accounted_ends hBooked hInside hRet hTook
              hRoom hMember
          · cases hD.symm.trans hBehind.dec
      | stays =>
          rcases hWhere with hInside | hBehind
          · cases hD.symm.trans hInside.dec
          · exact accounted_stays hBooked hBehind
      | fails hRet =>
          unfold infInflate
          rcases hRet with hRet | hRet | hRet | hRet <;>
            simp only [hRet, faultOf, if_true, reduceCtorEq,
              if_false] <;>
            trivial

end Account

------------------------------------------------------------
-- The End of the Members
------------------------------------------------------------

/-
  For every file, all sizes of the buffers and every decoder,
  when `inf` returns `Z_STREAM_END` the file is behind the
  members that were taken exactly if no call that ended one
  of them filled the output buffer.
-/
theorem leavesAtEnd_iff
    (deflated : Language UInt8)
    (chunkI chunkO start : Nat)
    (source dest : List UInt8)
    (trace : List Event)
    (s : InfState)
    (hRun :
      Run (InfStep deflated chunkI chunkO)
        (infEnter source dest start) trace s)
    (hRet : s.point = .returned .streamEnd) :
    LeavesAtEnd deflated source start trace s ↔
      ∀ e ∈ trace, ¬ FillsAtEnd chunkO e := by
  have hAccount :=
    hRun.invariant
      (Accounted deflated chunkO source start)
      (accounted_enter dest)
      (fun _ _ _ _ hPast hStep => accounted_step hPast hStep)
  unfold Accounted at hAccount
  rw [hRet] at hAccount
  rcases hAccount with
    ⟨members, hWhole, hPrefix, hTook, hOffset, hExact⟩
  rw [← hExact]
  constructor
  · rintro ⟨members', _, _, hTook', hOffset'⟩
    omega
  · intro hSame
    exact ⟨members, hWhole, hPrefix, hTook, by
      rw [hOffset, hSame]⟩

/- The member that holds one letter. -/
def letterMember : List UInt8 :=
  [0x1f, 0x8b, 0x08, 0, 0, 0, 0, 0, 0, 3] ++
    ([0x4b, 0x04, 0] ++
      [0x43, 0xbe, 0xb7, 0xe8, 0x01, 0, 0, 0])

theorem mem_letterMember :
    letterMember ∈ gzipMembers {[0x4b, 0x04, 0]} := by
  refine Language.append_mem_mul ⟨0, ?_⟩
    (Language.append_mem_mul rfl rfl)
  refine Language.mem_mul.mpr
    ⟨_, ⟨[0, 0, 0, 0], 0, 3, rfl, rfl⟩, [], ?_, rfl⟩
  exact ⟨[], rfl, [], ⟨[], rfl, [], ⟨[], rfl, [], rfl, rfl⟩,
    rfl⟩, rfl⟩

/- The call that ends it. -/
def letterEnd : Answer := ⟨.streamEnd, 21, [0x61]⟩

theorem inflates_letterMember
    {room : Nat}
    (hRoom : 1 ≤ room) :
    Inflates {[0x4b, 0x04, 0]} (.within []) letterMember room
      letterEnd .ended :=
  .ends rfl (Nat.le_refl 21) hRoom mem_letterMember

/- A file with two of them. -/
def twoLetters : List UInt8 := letterMember ++ letterMember

/- The whole file is read, and the first one is taken. -/
theorem inflates_twoLetters
    {room : Nat}
    (hRoom : 1 ≤ room) :
    Inflates {[0x4b, 0x04, 0]} (.within []) twoLetters room
      letterEnd .ended :=
  .ends rfl (by decide) hRoom mem_letterMember

/- One byte does not fill a buffer of two. -/
theorem noFill_letterEnd :
    ∀ e ∈ [] ++ [Event.fread false] ++
        [Event.inflate letterEnd false],
      ¬ FillsAtEnd 2 e := by
  intro e hE
  rcases List.mem_cons.mp hE with rfl | hE
  · exact id
  · cases List.mem_singleton.mp hE
    exact nofun

/-
  With room for more than one byte `inf` returns in front of
  the second member, and decodes this one when it is entered
  again.
-/
theorem leavesAtEnd_twoLetters :
    (∃ trace s,
      Run (InfStep {[0x4b, 0x04, 0]} 64 2)
        (infEnter twoLetters [] 0) trace s ∧
      s.point = .returned .streamEnd ∧
      s.offset = 21 ∧
      s.source.drop s.offset = letterMember ∧
      LeavesAtEnd {[0x4b, 0x04, 0]} twoLetters 0 trace s) ∧
    (∃ trace s,
      Run (InfStep {[0x4b, 0x04, 0]} 64 2)
        (infEnter twoLetters [0x61] 21) trace s ∧
      s.point = .returned .streamEnd ∧
      s.offset = 42 ∧
      s.dest = [0x61, 0x61] ∧
      LeavesAtEnd {[0x4b, 0x04, 0]} twoLetters 21 trace s) := by
  constructor
  · have hRead :=
      Run.next Run.start
        (@InfStep.fread {[0x4b, 0x04, 0]} 64 2
          (infEnter twoLetters [] 0) false rfl)
    have hEnd :=
      Run.next hRead
        (@InfStep.inflate _ _ _ _ _ _ false rfl
          (inflates_twoLetters (by decide)))
    exact ⟨_, _, hEnd, rfl, rfl, rfl,
      (leavesAtEnd_iff _ _ _ _ _ _ _ _ hEnd rfl).mpr
        noFill_letterEnd⟩
  · have hRead :=
      Run.next Run.start
        (@InfStep.fread {[0x4b, 0x04, 0]} 64 2
          (infEnter twoLetters [0x61] 21) false rfl)
    have hEnd :=
      Run.next hRead
        (@InfStep.inflate _ _ _ _ _ _ false rfl
          (inflates_letterMember (by decide)))
    exact ⟨_, _, hEnd, rfl, rfl, rfl,
      (leavesAtEnd_iff _ _ _ _ _ _ _ _ hEnd rfl).mpr
        noFill_letterEnd⟩

/- With room for this byte it is counted twice. -/
theorem not_leavesAtEnd_letterMember :
    ∃ trace s,
      Run (InfStep {[0x4b, 0x04, 0]} 64 1)
        (infEnter letterMember [] 0) trace s ∧
      s.point = .returned .streamEnd ∧
      ¬ LeavesAtEnd {[0x4b, 0x04, 0]} letterMember 0 trace
        s := by
  have hRead :=
    Run.next Run.start
      (@InfStep.fread {[0x4b, 0x04, 0]} 64 1
        (infEnter letterMember [] 0) false rfl)
  have hEnd :=
    Run.next hRead
      (@InfStep.inflate _ _ _ _ _ _ false rfl
        (inflates_letterMember (by decide)))
  have hAgain :=
    Run.next hEnd
      (@InfStep.inflate _ _ _ _ _ _ false rfl
        Inflates.stays)
  refine ⟨_, _, hAgain, rfl, ?_⟩
  rintro ⟨members, _, _, hTook, hOffset⟩
  have hTook' : 21 = members.flatten.length := hTook
  have hOffset' : 42 = 0 + members.flatten.length := hOffset
  omega

end Tools
