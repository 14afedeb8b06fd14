import GenWqe.Session.Deflate

/-
  The format header of a deflate stream as one piece: what a
  call that writes it, or refuses to, leaves in the FIFO,
  along any sequence of calls on the stream.

  Key definitions include:
    * `AllOrNothing`, `RoomForHeader`
    * `WrittenAtOnce`, `RoomWhenWritten`

  Main results:
    * `allOrNothing_iff`
    * `headerUnsent_op`
    * `writtenAtOnce_iff`
-/

------------------------------------------------------------
-- One Call
------------------------------------------------------------

namespace Session

open Zedc Hardware

/-
  A header that is written is in the FIFO, whole and alone;
  one that is refused has changed neither the FIFO nor
  `header_added`. Raw data has no header.
-/
structure AllOrNothing
    (now : UInt32) (s : DeflStream) : Prop where
  whole :
    (deflateAddHeader now s).1 = false →
      (formatHeader now s ≠ [] →
        s.outFifo.contents = []) ∧
      (deflateAddHeader now s).2.outFifo.contents =
        s.outFifo.contents ++ formatHeader now s
  nothing :
    (deflateAddHeader now s).1 = true →
      (deflateAddHeader now s).2.outFifo.contents =
        s.outFifo.contents ∧
      (deflateAddHeader now s).2.headerAdded = s.headerAdded

/-
  The three variable fields of a GZIP header have at most 240
  bytes together, and the whole header at most 255.
-/
def RoomForHeader (now : UInt32) (s : DeflStream) : Prop :=
  (s.format = .gzip →
    ∀ h, s.gzipHead = some h → gzipHeadTooLong h = false) ∧
  (formatHeader now s).length ≤ 255

/- Before the header there is nothing in the FIFO. -/
def HeaderUnsent (s : DeflStream) : Prop :=
  HeaderOpen s → s.outFifo.contents = []

section Header

variable {now : UInt32} {s : DeflStream}

theorem formatHeader_eq_nil_iff :
    formatHeader now s = [] ↔ s.format = .defl := by
  unfold formatHeader
  cases s.format with
  | defl => simp
  | gzip => cases s.gzipHead <;> simp [gzipHeader]
  | zlib => cases s.havedict <;> simp

/- A header is refused for its variable fields only. -/
theorem deflateAddHeader_refused_iff :
    (deflateAddHeader now s).1 = true ↔
      s.format = .gzip ∧
        ∃ h, s.gzipHead = some h ∧ gzipHeadTooLong h := by
  unfold deflateAddHeader
  cases s.format with
  | defl => simp
  | zlib => simp
  | gzip =>
      cases s.gzipHead with
      | none => simp
      | some h => cases hLong : gzipHeadTooLong h <;> simp [hLong]

/- By then the first three bytes are in the FIFO. -/
theorem contents_refused
    (hRefused : (deflateAddHeader now s).1 = true)
    (hEmpty : s.outFifo.contents = []) :
    (deflateAddHeader now s).2.outFifo.contents =
      [0x1f, 0x8b, 0x08] := by
  rcases deflateAddHeader_refused_iff.mp hRefused with
    ⟨hFormat, h, hHead, hLong⟩
  have hPush :=
    ZedcFifo.contents_fifoPushAll s.outFifo
      [0x1f, 0x8b, 0x08] (by simp [hEmpty])
  rw [hEmpty, List.nil_append] at hPush
  unfold deflateAddHeader
  simp only [hFormat, hHead, hLong, if_true]
  exact hPush

theorem RoomForHeader.accepted
    (hRoom : RoomForHeader now s) :
    (deflateAddHeader now s).1 = false := by
  cases hFlag : (deflateAddHeader now s).1 with
  | false => rfl
  | true =>
      rcases deflateAddHeader_refused_iff.mp hFlag with
        ⟨hFormat, h, hHead, hLong⟩
      exact nomatch (hRoom.1 hFormat h hHead).symm.trans hLong

/- A FIFO holds no more than 255 bytes. -/
theorem length_contents_le (f : ZedcFifo) :
    f.contents.length ≤ 255 := by
  rw [ZedcFifo.length_contents]
  exact Nat.le_of_lt_succ f.fifoUsed_lt

/-
  With nothing in the FIFO before, a header is written whole
  or left alone exactly if there is room for it.
-/
theorem allOrNothing_iff
    (hEmpty :
      s.format ≠ .defl → s.outFifo.contents = []) :
    AllOrNothing now s ↔ RoomForHeader now s := by
  by_cases hDefl : s.format = .defl
  · have hNil : formatHeader now s = [] :=
      formatHeader_eq_nil_iff.mpr hDefl
    have hAdd : deflateAddHeader now s = (false, s) := by
      unfold deflateAddHeader
      rw [hDefl]
    refine iff_of_true ⟨fun _ => ?_, fun hFlag => ?_⟩ ⟨?_, ?_⟩
    · rw [hNil, hAdd, List.append_nil]
      exact ⟨fun h => absurd rfl h, rfl⟩
    · rw [hAdd] at hFlag
      cases hFlag
    · rw [hDefl]
      exact nofun
    · rw [hNil]
      exact Nat.zero_le _
  · have hNone := hEmpty hDefl
    constructor
    · intro hAll
      cases hFlag : (deflateAddHeader now s).1 with
      | true =>
          have hThree := contents_refused hFlag hNone
          rw [(hAll.nothing hFlag).1, hNone] at hThree
          cases hThree
      | false =>
          have hLen :
              (formatHeader now s).length ≤ 255 := by
            have hWhole := (hAll.whole hFlag).2
            rw [hNone, List.nil_append] at hWhole
            rw [← hWhole]
            exact length_contents_le _
          refine ⟨fun hFormat h hHead => ?_, hLen⟩
          cases hLong : gzipHeadTooLong h with
          | false => rfl
          | true =>
              have hTrue : (deflateAddHeader now s).1 = true :=
                deflateAddHeader_refused_iff.mpr
                  ⟨hFormat, h, hHead, hLong⟩
              rw [hFlag] at hTrue
              cases hTrue
    · intro hRoom
      refine ⟨fun hFlag => ?_, fun hFlag => ?_⟩
      · rcases deflateAddHeader_spec now s hNone hRoom.2
          hFlag with ⟨f, hAdd, hContents⟩
        rw [hAdd, hNone, List.nil_append]
        exact ⟨fun _ => rfl, hContents⟩
      · rw [hRoom.accepted] at hFlag
        cases hFlag

------------------------------------------------------------
-- A Run
------------------------------------------------------------

/- A call that writes the header does it in one piece. -/
def WrittenAtOnce
    (s : DeflStream) (l : DeflateOp × Rc) : Prop :=
  ∀ call,
    l.1 = .deflate call →
    s.headerAdded = false →
      AllOrNothing call.env.now (offerDeflate call s)

/- A call that writes the header has room for it. -/
def RoomWhenWritten
    (s : DeflStream) (l : DeflateOp × Rc) : Prop :=
  ∀ call,
    l.1 = .deflate call →
    s.headerAdded = false →
      RoomForHeader call.env.now s

/- What leaves the header open has refused it. -/
theorem headerOpen_refused
    {call : DeflateCall}
    (hOpen : HeaderOpen (call.ret s).strm) :
    HeaderOpen s ∧
      (deflateAddHeader call.env.now
        (offerDeflate call s)).1 = true := by
  have hPrepared := headerOpen_prepared call hOpen
  have hBefore : HeaderOpen s :=
    (deflatePrepare_headerOpen hPrepared).1
  refine ⟨hBefore, ?_⟩
  unfold deflatePrepare at hPrepared
  have hNone : (offerDeflate call s).headerAdded = false :=
    hBefore.2
  rw [hNone] at hPrepared
  simp only [Bool.false_eq_true, if_false] at hPrepared
  cases hAdd :
      deflateAddHeader call.env.now (offerDeflate call s) with
  | mk err s₁ =>
      cases err with
      | true => rfl
      | false =>
          rw [hAdd] at hPrepared
          have hDrained :=
            deflatePrepareDrained_header call.flush
              (deflateWriteOutFifo s₁)
          have hSide := inputSide_deflateWriteOutFifo s₁
          have hFormat :
              (deflateWriteOutFifo s₁).format = s₁.format :=
            (congrArg DeflStream.format hSide :)
          have hAdded :
              (deflateWriteOutFifo s₁).headerAdded =
                s₁.headerAdded :=
            (congrArg DeflStream.headerAdded hSide :)
          have hBehind : HeaderOpen s₁ :=
            ⟨(hDrained.1.trans hFormat) ▸ hPrepared.1,
              (hDrained.2.trans hAdded) ▸ hPrepared.2⟩
          have hOpened :
              (if (offerDeflate call s).headerAdded then
                  (false, offerDeflate call s)
                else
                  deflateAddHeader call.env.now
                    (offerDeflate call s)) = (false, s₁) := by
            rw [hNone]
            exact hAdd
          cases (addHeader_open hOpened hBehind).1

/- Nothing gets into the FIFO in front of the header. -/
theorem headerUnsent_op
    {s' : DeflStream}
    {l : DeflateOp × Rc}
    (hUnsent : HeaderUnsent s)
    (hStep : deflateOpStep s l s')
    (hRooms : RoomWhenWritten s l) : HeaderUnsent s' := by
  rcases l with ⟨op, rc⟩
  have hStrm : (op.run s).2 = s' := congrArg Prod.snd hStep
  rw [← hStrm]
  cases op with
  | deflate call =>
      intro hOpen
      rcases headerOpen_refused hOpen with
        ⟨hBefore, hRefused⟩
      have hRoom :
          RoomForHeader call.env.now (offerDeflate call s) :=
        hRooms call rfl hBefore.2
      rw [hRoom.accepted] at hRefused
      cases hRefused
  | setDictionary dictionary =>
      show HeaderUnsent (deflateSetDictionary dictionary s).2
      unfold deflateSetDictionary zedcDeflateSetDictionary
      split
      · exact hUnsent
      · split
        · exact hUnsent
        · exact hUnsent
  | setHeader head => exact hUnsent
  | reset => exact fun _ => ZedcFifo.contents_fifoInit

/- A refused header is a stream error. -/
theorem rc_refused
    {call : DeflateCall}
    (hNone : s.headerAdded = false)
    (hRefused :
      (deflateAddHeader call.env.now
        (offerDeflate call s)).1 = true) :
    (call.ret s).rc = .streamError := by
  have hPrepare :
      ∃ s₁,
        deflatePrepare call.flush call.env.now
          (offerDeflate call s) = .inl (.streamError, s₁) := by
    unfold deflatePrepare
    have hOpen : (offerDeflate call s).headerAdded = false :=
      hNone
    rw [hOpen]
    simp only [Bool.false_eq_true, if_false]
    generalize
      deflateAddHeader call.env.now
        (offerDeflate call s) = added at *
    rcases added with ⟨err, s₁⟩
    cases hRefused
    exact ⟨s₁, rfl⟩
  rcases hPrepare with ⟨s₁, hLeft⟩
  change
    (zedcDeflate call.flush call.env
      (offerDeflate call s)).rc = .streamError
  unfold zedcDeflate
  rw [hLeft]

end Header

theorem deflateOpStep_unique
    (s : DeflStream)
    (l : DeflateOp × Rc)
    (s₁ s₂ : DeflStream)
    (hStep₁ : deflateOpStep s l s₁)
    (hStep₂ : deflateOpStep s l s₂) : s₁ = s₂ :=
  congrArg Prod.snd (hStep₁.symm.trans hStep₂)

/-
  Along any calls on a stream every header is written in one
  piece or not at all, exactly if there is room for each of
  those that a call comes to write.
-/
theorem writtenAtOnce_iff
    (cfg : DeflateConfig)
    (format : Format)
    (trace : List (DeflateOp × Rc))
    (s : DeflStream)
    (hRun : DeflateRun cfg format trace s) :
    (∀ past l s₁,
        past ++ [l] <+: trace →
        DeflateRun cfg format past s₁ →
          WrittenAtOnce s₁ l) ↔
      ∀ past l s₁,
        past ++ [l] <+: trace →
        DeflateRun cfg format past s₁ →
          RoomWhenWritten s₁ l := by
  apply Run.all_steps_iff HeaderUnsent WrittenAtOnce
    RoomWhenWritten deflateOpStep_unique
  · exact fun _ => ZedcFifo.contents_fifoInit
  · intro s l s' hUnsent hStep hRooms
    exact headerUnsent_op hUnsent hStep hRooms
  · intro s l _ hUnsent _
    refine forall_congr' fun call => ?_
    refine imp_congr_right fun _ => ?_
    refine imp_congr_right fun hNone => ?_
    exact allOrNothing_iff fun hFormat =>
      hUnsent ⟨hFormat, hNone⟩
  · exact hRun

------------------------------------------------------------
-- Three Bytes Too Early
------------------------------------------------------------

/- A card of the software kind and no skipping. -/
def softDeflate : DeflateConfig where
  dynHuffmanSupported := true
  strategyFixed := false
  flgCrossCheck := false
  flgSkipLastDict := false

/- A header whose only field is a name of `n` letters. -/
def namedHead (n : Nat) : GzipHead where
  time := 0
  xflags := 0
  os := 3
  extra := none
  name := some (List.replicate n 0x61)
  comment := none

/- Room for one byte of output, and no input. -/
def oneByteOut : DeflateCall where
  nextIn := []
  availOut := 1
  flush := .finish
  env := ⟨fun _ req => echoResp req, 0⟩

/- The stream that the header was registered on. -/
def headStream (n : Nat) : DeflStream :=
  zedcDeflateSetHeader (some (namedHead n))
    (zedcDeflateInit2 softDeflate .gzip)

theorem headStream_run (n : Nat) :
    DeflateRun softDeflate .gzip
      [(.setHeader (some (namedHead n)), .ok)]
      (headStream n) :=
  Run.start.next rfl

/- The only call that comes to write the header. -/
theorem headTrace_cases
    {n : Nat}
    {rc : Rc}
    {past : List (DeflateOp × Rc)}
    {l : DeflateOp × Rc}
    {s₁ : DeflStream}
    {call : DeflateCall}
    (hPre :
      past ++ [l] <+:
        [(.setHeader (some (namedHead n)), .ok),
          (.deflate oneByteOut, rc)])
    (hRun : DeflateRun softDeflate .gzip past s₁)
    (hCall : l.1 = .deflate call) :
    call = oneByteOut ∧ s₁ = headStream n := by
  rcases past with _ | ⟨l₀, past⟩
  · cases (List.cons_prefix_cons.mp hPre).1
    cases hCall
  · rcases List.cons_prefix_cons.mp hPre with ⟨rfl, hPre'⟩
    rcases past with _ | ⟨l₁, past⟩
    · cases (List.cons_prefix_cons.mp hPre').1
      cases hCall
      exact ⟨rfl,
        Run.unique deflateOpStep_unique hRun
          (headStream_run n)⟩
    · have hNil := (List.cons_prefix_cons.mp hPre').2
      simp at hNil

theorem writtenAtOnce_named :
    DeflateRun softDeflate .gzip
        [(.setHeader (some (namedHead 3)), .ok),
          (.deflate oneByteOut, .ok)]
        ((oneByteOut.ret (headStream 3)).strm) ∧
      ∀ past l s₁,
        past ++ [l] <+:
          [(.setHeader (some (namedHead 3)), .ok),
            (.deflate oneByteOut, .ok)] →
        DeflateRun softDeflate .gzip past s₁ →
          WrittenAtOnce s₁ l := by
  have hRun :
      DeflateRun softDeflate .gzip
        [(.setHeader (some (namedHead 3)), .ok),
          (.deflate oneByteOut, .ok)]
        ((oneByteOut.ret (headStream 3)).strm) :=
    (headStream_run 3).next rfl
  refine ⟨hRun, ?_⟩
  apply (writtenAtOnce_iff _ _ _ _ hRun).mpr
  intro past l s₁ hPre hRun₁ call hCall _
  rcases headTrace_cases hPre hRun₁ hCall with ⟨rfl, rfl⟩
  refine ⟨fun _ h hHead => ?_, by decide⟩
  cases hHead
  decide

/- A long name is refused with three bytes in the FIFO. -/
theorem headTrace_refused
    {n : Nat}
    (hLong : 240 < n)
    (hInt : n < 2 ^ 32) :
    DeflateRun softDeflate .gzip
        [(.setHeader (some (namedHead n)), .ok),
          (.deflate oneByteOut, .streamError)]
        ((oneByteOut.ret (headStream n)).strm) ∧
      ¬ ∀ past l s₁,
        past ++ [l] <+:
          [(.setHeader (some (namedHead n)), .ok),
            (.deflate oneByteOut, .streamError)] →
        DeflateRun softDeflate .gzip past s₁ →
          WrittenAtOnce s₁ l := by
  have hTooLong : gzipHeadTooLong (namedHead n) = true := by
    have hName : strLen (some (List.replicate n 0x61)) = n := by
      unfold strLen
      rw [Option.getD_some, List.length_replicate]
      exact Nat.mod_eq_of_lt hInt
    have hSum : (n + 0 + 0) % 2 ^ 32 = n :=
      Nat.mod_eq_of_lt hInt
    unfold gzipHeadTooLong
    apply decide_eq_true
    show (strLen (some (List.replicate n 0x61)) + 0 + 0) %
      2 ^ 32 > 240
    rw [hName, hSum]
    exact hLong
  have hRefused :
      (deflateAddHeader oneByteOut.env.now
        (offerDeflate oneByteOut (headStream n))).1 =
          true :=
    deflateAddHeader_refused_iff.mpr
      ⟨rfl, _, rfl, hTooLong⟩
  have hStep :
      deflateOpStep (headStream n)
        (.deflate oneByteOut, .streamError)
        (oneByteOut.ret (headStream n)).strm :=
    Prod.ext (rc_refused rfl hRefused) rfl
  refine ⟨(headStream_run n).next hStep, fun hWhole => ?_⟩
  have hLast :=
    hWhole _ _ _ (List.prefix_refl _) (headStream_run n)
      oneByteOut rfl rfl
  have hRoom :=
    (allOrNothing_iff
      (fun _ => ZedcFifo.contents_fifoInit)).mp hLast
  exact nomatch (hRoom.1 rfl _ rfl).symm.trans hTooLong

theorem writtenAtOnce_fails :
    DeflateRun softDeflate .gzip
        [(.setHeader (some (namedHead 241)), .ok),
          (.deflate oneByteOut, .streamError)]
        ((oneByteOut.ret (headStream 241)).strm) ∧
      ¬ ∀ past l s₁,
        past ++ [l] <+:
          [(.setHeader (some (namedHead 241)), .ok),
            (.deflate oneByteOut, .streamError)] →
        DeflateRun softDeflate .gzip past s₁ →
          WrittenAtOnce s₁ l :=
  headTrace_refused (by decide) (by decide)

end Session
