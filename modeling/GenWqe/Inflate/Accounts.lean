import GenWqe.Inflate.Decompress
import GenWqe.Lib.Account

/-
  The counters of an inflate stream, and what else any call of
  `zedc_inflate` can do, whatever state it is made in.

  Key definitions include:
    * `InflStream.account`
    * `HeaderPassed`, `TrailerPassed`

  Main results:
    * `zedcInflate_moves`
    * `zedcInflate_streamEnd`
-/

------------------------------------------------------------
-- The Header and the Trailer
------------------------------------------------------------

namespace Zedc

/-
  `k` bytes of header were removed; only what belongs to the
  header has changed.
-/
structure HeaderPassed (s s' : InflStream) (k : Nat) :
    Prop where
  le : k ≤ s.nextIn.length
  strm :
    s' =
      { s.advance k with
        prefx := s'.prefx
        dictAdler32 := s'.dictAdler32
        adler32 := s'.adler32
        havedict := s'.havedict
        dataType80 := s'.dataType80 }

/- `k` bytes of trailer were removed. -/
structure TrailerPassed (s s' : InflStream) (k : Nat) :
    Prop where
  le : k ≤ s.nextIn.length
  strm : s' = { s.advance k with postfx := s'.postfx }

/- No byte was removed. -/
theorem HeaderPassed.refl (s : InflStream) :
    HeaderPassed s s 0 :=
  ⟨Nat.zero_le _, by simp [InflStream.advance]⟩

/- `inflate_format_rem_header` takes a part of the input. -/
theorem inflateFormatRemHeader_passed
    {flush : Flush}
    {s s' : InflStream}
    {rc : Rc}
    (hRemove :
      inflateFormatRemHeader flush s = some (rc, s')) :
    (∃ k, HeaderPassed s s' k) ∧
      (rc = .ok ∨ rc = .errGzipHdr ∨ rc = .needDict) := by
  unfold inflateFormatRemHeader at hRemove
  split at hRemove
  · cases hRemove
    exact ⟨⟨0, HeaderPassed.refl s⟩, Or.inl rfl⟩
  · simp only at hRemove
    have hPrepared :
        (remHeaderPrepare s).nextIn = s.nextIn ∧
        remHeaderPrepare s =
          { s with
            dataType80 := false
            prefx := (remHeaderPrepare s).prefx } := by
      unfold remHeaderPrepare
      split <;> exact ⟨rfl, rfl⟩
    cases hLoop :
        remHeaderLoop s.nextIn (remHeaderPrepare s) with
    | none =>
        rw [hLoop] at hRemove
        cases hRemove
    | some result =>
        rcases result with ⟨rc₁, s₁⟩
        rcases remHeaderLoop_spec hPrepared.1 hLoop with
          ⟨⟨k, hTaken⟩, hRc⟩
        have hLe := hTaken.le
        have hStrm := hTaken.strm
        rw [hPrepared.1] at hLe
        rw [hPrepared.2] at hStrm
        rw [hLoop] at hRemove
        simp only at hRemove
        split at hRemove
        · cases hRemove
          refine ⟨⟨k, hLe, ?_⟩, hRc⟩
          rw [hStrm]
          rfl
        · cases hRemove
          refine ⟨⟨k, hLe, ?_⟩, hRc⟩
          rw [hStrm]
          rfl

/- The same where the header may be over already. -/
theorem inflateHeader_passed
    {flush : Flush}
    {s s' : InflStream}
    {rc : Rc}
    (hHeader : HeaderDone flush s s' rc) :
    (∃ k, HeaderPassed s s' k) ∧
      (rc = .ok ∨ rc = .errGzipHdr ∨ rc = .needDict) := by
  unfold HeaderDone inflateHeader at hHeader
  split at hHeader
  · exact inflateFormatRemHeader_passed hHeader
  · cases hHeader
    exact ⟨⟨0, HeaderPassed.refl s⟩, Or.inl rfl⟩

/- The checks of the trailer change `postfx` only. -/
theorem trailerChecks_strm (s : InflStream) :
    (trailerChecks s).2 =
      { s with postfx := (trailerChecks s).2.postfx } := by
  have hCrc :
      ∀ s : InflStream,
        (checkCrc32 s).2 =
          { s with postfx := (checkCrc32 s).2.postfx } := by
    intro s
    unfold checkCrc32
    simp only
    split <;> rfl
  have hTrailer :
      ∀ s : InflStream,
        (checkTrailer s).2 =
          { s with postfx := (checkTrailer s).2.postfx } := by
    intro s
    unfold checkTrailer
    split
    · exact hCrc _
    · simp only
      split <;> rfl
  have hEarly :
      (if s.postfx.idx = 4 ∧ s.format = .gzip then
          checkCrc32 s
        else (none, s)).2 =
        { s with
          postfx :=
            (if s.postfx.idx = 4 ∧ s.format = .gzip then
              checkCrc32 s
            else (none, s)).2.postfx } := by
    split
    · exact hCrc s
    · rfl
  unfold trailerChecks
  simp only
  generalize (if s.postfx.idx = 4 ∧ s.format = .gzip then
      checkCrc32 s
    else (none, s)) = early at hEarly ⊢
  rcases early with ⟨_ | rc, s₁⟩
  · simp only at hEarly ⊢
    split
    · rw [hTrailer s₁, hEarly]
    · exact hEarly
  · exact hEarly

/- The loop over the trailer, by induction on the input. -/
theorem remTrailerLoop_passed
    {bs : List UInt8}
    {s s' : InflStream}
    {result : Option Rc}
    (hBytes : s.nextIn = bs)
    (hLoop : remTrailerLoop bs s = (result, s')) :
    ∃ k, TrailerPassed s s' k := by
  -- `k` counts the bytes up to where the loop was left
  induction bs generalizing s with
  | nil =>
      cases hLoop
      exact ⟨0, Nat.zero_le _, by simp [InflStream.advance]⟩
  | cons b rest ih =>
      unfold remTrailerLoop at hLoop
      split at hLoop
      swap
      · cases hLoop
        exact ⟨0, Nat.zero_le _,
          by simp [InflStream.advance]⟩
      have hCheck := trailerChecks_strm (s.takeTrailerByte b)
      generalize trailerChecks (s.takeTrailerByte b) =
        checked at hCheck hLoop
      rcases checked with ⟨_ | rc, s₁⟩
      · simp only at hCheck hLoop
        have hNextIn : s₁.nextIn = rest := by
          rw [hCheck]
          simp [InflStream.takeTrailerByte,
            InflStream.advance, hBytes]
        rcases ih hNextIn hLoop with ⟨k, hLe, hStrm⟩
        refine ⟨k + 1, ?_, ?_⟩
        · rw [hNextIn] at hLe
          rw [hBytes, List.length_cons]
          exact Nat.succ_le_succ hLe
        · rw [hStrm, hCheck]
          simp only [InflStream.takeTrailerByte,
            InflStream.advance, List.drop_drop,
            Nat.add_assoc, Nat.add_comm 1 k]
      · cases hLoop
        refine ⟨1, by simp [hBytes], ?_⟩
        simp only at hCheck
        rw [hCheck]
        rfl

/- `inflate_format_rem_trailer` takes a part of the input. -/
theorem inflateFormatRemTrailer_passed
    {s s' : InflStream}
    {rc : TrailerRc}
    (hRemove : inflateFormatRemTrailer s = (rc, s')) :
    ∃ k, TrailerPassed s s' k := by
  have hNone : ∃ k, TrailerPassed s s k :=
    ⟨0, Nat.zero_le _, by simp [InflStream.advance]⟩
  unfold inflateFormatRemTrailer at hRemove
  split at hRemove
  · cases hRemove
    exact hNone
  simp only at hRemove
  have hPrepared :
      (remTrailerPrepare s).nextIn = s.nextIn ∧
      remTrailerPrepare s =
        { s with postfx := (remTrailerPrepare s).postfx } := by
    unfold remTrailerPrepare
    split <;> exact ⟨rfl, rfl⟩
  generalize hLoop :
    remTrailerLoop (remTrailerPrepare s).nextIn
      (remTrailerPrepare s) = looped at hRemove
  rcases looped with ⟨result, s₁⟩
  have hSame : s' = s₁ := by
    cases result with
    | none =>
        simp only at hRemove
        split at hRemove <;> cases hRemove <;> rfl
    | some rc =>
        cases hRemove
        rfl
  rcases remTrailerLoop_passed rfl hLoop with ⟨k, hLe, hStrm⟩
  rw [hPrepared.1] at hLe
  refine ⟨k, hLe, ?_⟩
  rw [hSame, hStrm, hPrepared.2]
  rfl

/- What the trailer comes to. -/
theorem inflateTrailer_passed (s : InflStream) :
    (∃ k, TrailerPassed s (inflateTrailer s).2 k) ∧
      ((inflateTrailer s).1 = .ok ∨
        (inflateTrailer s).1 = .dataError ∨
        (inflateTrailer s).1 = .streamEnd ∧
          (inflateTrailer s).2.dict.obytesInDict = 0) := by
  unfold inflateTrailer
  cases hRemove : inflateFormatRemTrailer s with
  | mk rc s₁ =>
    have hPassed := inflateFormatRemTrailer_passed hRemove
    cases rc with
    | failed rc => exact ⟨hPassed, Or.inr (Or.inl rfl)⟩
    | mustReenter => exact ⟨hPassed, Or.inl rfl⟩
    | removed =>
        simp only
        split
        · rename_i hNone
          exact ⟨hPassed, Or.inr (Or.inr ⟨rfl, hNone⟩)⟩
        · exact ⟨hPassed, Or.inl rfl⟩

------------------------------------------------------------
-- The Account of a Stream
------------------------------------------------------------

/- The book-keeping fields of a stream. -/
def InflStream.account (s : InflStream) : Account UInt8 where
  input := s.nextIn
  totalIn := s.totalIn
  output := s.nextOut
  availOut := s.availOut
  totalOut := s.totalOut

/- Header bytes are counted like any other input. -/
theorem HeaderPassed.moves
    {s s' : InflStream}
    {k : Nat}
    (hPassed : HeaderPassed s s' k) :
    s.account.Moves s'.account := by
  rw [hPassed.strm]
  exact Account.Moves.of_take hPassed.le

/- So are those of the trailer. -/
theorem TrailerPassed.moves
    {s s' : InflStream}
    {k : Nat}
    (hPassed : TrailerPassed s s' k) :
    s.account.Moves s'.account := by
  rw [hPassed.strm]
  exact Account.Moves.of_take hPassed.le

/- A call behind the final block. -/
theorem inflateTrailer_moves (s : InflStream) :
    s.account.Moves (inflateTrailer s).2.account := by
  rcases (inflateTrailer_passed s).1 with ⟨k, hPassed⟩
  exact hPassed.moves

/- Noting the end of the final block counts nothing. -/
@[simp] theorem account_inflateEobSeen (s : InflStream) :
    (inflateEobSeen s).account = s.account := by
  unfold inflateEobSeen
  split <;> rfl

/- Output that was parked is counted when it is given out. -/
theorem Flushed.moves
    {s s₁ : InflStream}
    {n : Nat}
    (hFlushed : Flushed s s₁ n) :
    s.account.Moves s₁.account := by
  have hLen : (s.dict.pending.take n).length = n := by
    rw [List.length_take, DictArea.length_pending]
    exact Nat.min_eq_left hFlushed.pending
  have hGive :
      s₁.account =
        s.account.give (s.dict.pending.take n) := by
    rw [hFlushed.strm]
    simp only [InflStream.account, InflStream.giveOut,
      Account.give, hLen]
  rw [hGive]
  refine Account.Moves.of_give ?_
  rw [hLen]
  exact hFlushed.availOut

/- The stream on either side of a preparation. -/
def preparedInfl :
    Sum (Rc × InflStream) InflStream → InflStream
  | .inl (_, s) => s
  | .inr s => s

/- Each of the ways out in front of a DDCB, and the way on. -/
theorem inflatePrepare_moves
    {flush : Flush}
    {s : InflStream}
    {result : Sum (Rc × InflStream) InflStream}
    (hPrepare : inflatePrepare flush s = some result) :
    s.account.Moves (preparedInfl result).account := by
  cases inflatePrepare_outcome hPrepare with
  | tooLarge _ => exact Account.Moves.refl _
  | overrun _ _ => exact Account.Moves.refl _
  | trailer _ hFlushed _ =>
      rename_i s₁ n _ _
      have hTrailer := inflateTrailer_moves (inflateEobSeen s₁)
      rw [account_inflateEobSeen] at hTrailer
      exact hFlushed.moves.trans hTrailer
  | full _ hFlushed _ _ => exact hFlushed.moves
  | header _ hFlushed _ _ hHeader _ =>
      rcases (inflateHeader_passed hHeader).1 with
        ⟨k, hPassed⟩
      exact hFlushed.moves.trans hPassed.moves
  | block _ hFlushed _ _ hHeader _ =>
      rcases (inflateHeader_passed hHeader).1 with
        ⟨k, hPassed⟩
      exact hFlushed.moves.trans hPassed.moves
  | noInput _ hFlushed _ _ hHeader _ _ _ =>
      rcases (inflateHeader_passed hHeader).1 with
        ⟨k, hPassed⟩
      exact hFlushed.moves.trans hPassed.moves
  | ready _ hFlushed _ _ hHeader _ _ =>
      rcases (inflateHeader_passed hHeader).1 with
        ⟨k, hPassed⟩
      exact hFlushed.moves.trans hPassed.moves

/- The input is taken, and a trailer with it. -/
theorem inflateFinish_moves (s : InflStream)
    (hOffs : s.inpDataOffs ≤ s.nextIn.length) :
    s.account.Moves (inflateFinish s).2.account := by
  have hTaken :
      s.account.Moves
        (inflateEobSeen
          (s.advance s.inpDataOffs)).account := by
    rw [account_inflateEobSeen]
    exact Account.Moves.of_take hOffs
  unfold inflateFinish
  simp only
  split
  · exact hTaken.trans (inflateTrailer_moves _)
  · exact hTaken

/- Results that are refused move nothing, or the output only. -/
theorem inflateCheck_moves
    (ex : InflExchange) (rc : Rc) (s : InflStream) :
    s.account.Moves (inflateCheck ex rc s).2.account := by
  have hStore :
      ¬ s.asv.outpReturned > s.availOut →
        s.account.Moves (inflateStore ex s).account := by
    intro hSpace
    refine ⟨0, ex.resp.outBuff.window 0 s.asv.outpReturned,
      Nat.zero_le _, ?_, ?_⟩
    · rw [ByteMem.length_window]
      exact Nat.not_lt.mp hSpace
    · simp [InflStream.account, inflateStore, Account.give]
  unfold inflateCheck
  split
  · exact Account.Moves.refl _
  · split
    · exact Account.Moves.refl _
    · rename_i hSpace
      split
      · exact hStore hSpace
      · rename_i hOffs
        exact (hStore hSpace).trans
          (inflateFinish_moves (inflateStore ex s)
            (Nat.not_lt.mp hOffs))

/- A DDCB; executing it leaves the books alone. -/
theorem inflateSubmit_moves
    {flush : Flush}
    {env : InflateEnv}
    {s : InflStream}
    {ret : InflRet}
    (hSubmit : inflateSubmit flush env s = some ret) :
    s.account.Moves ret.strm.account := by
  have hExec :
      ∀ {exec : InflExec} {s₁ : InflStream},
        inflateExecute flush env s = (exec, s₁) →
          s₁.account = s.account := by
    intro exec s₁ hExec
    rcases inflateExecute_strm flush env s with
      ⟨pages, hStrm⟩
    rw [hExec] at hStrm
    simp only at hStrm
    rw [hStrm]
    rfl
  cases inflateSubmit_outcome hSubmit with
  | needDict hRun =>
      rw [← hExec hRun]
      exact Account.Moves.refl _
  | failed hRun =>
      rw [← hExec hRun]
      exact Account.Moves.refl _
  | @done s₁ s₂ ex rc hRun hUpdate =>
      have hSame : s₂.account = s₁.account := by
        rw [(postScratchUpd_changes hUpdate).1.strm]
        rfl
      rw [← hExec hRun, ← hSame]
      exact inflateCheck_moves ex rc s₂

/- A call of `zedc_inflate` keeps the books. -/
theorem zedcInflate_moves
    {flush : Flush}
    {env : InflateEnv}
    {s : InflStream}
    {ret : InflRet}
    (hCall : zedcInflate flush env s = some ret) :
    s.account.Moves ret.strm.account := by
  unfold zedcInflate at hCall
  cases hPrepare : inflatePrepare flush s with
  | none =>
      rw [hPrepare] at hCall
      cases hCall
  | some result =>
      have hMoves := inflatePrepare_moves hPrepare
      rw [hPrepare] at hCall
      rcases result with ⟨rc, s₁⟩ | s₁
      · cases hCall
        exact hMoves
      · exact hMoves.trans (inflateSubmit_moves hCall)

------------------------------------------------------------
-- The End of the Stream
------------------------------------------------------------

/- The end is answered with no output left behind. -/
def EndDrained (ret : Rc × InflStream) : Prop :=
  ret.1 = .streamEnd → ret.2.dict.obytesInDict = 0

/- The trailer asks for the parked output first. -/
theorem inflateTrailer_drained (s : InflStream) :
    EndDrained (inflateTrailer s) := by
  intro hEnd
  rcases (inflateTrailer_passed s).2 with hOk | hErr | hDone
  · rw [hOk] at hEnd
    cases hEnd
  · rw [hErr] at hEnd
    cases hEnd
  · exact hDone.2

/- The end behind a DDCB is that of its trailer. -/
theorem inflateCheck_drained
    (ex : InflExchange) (rc : Rc) (s : InflStream) :
    EndDrained (inflateCheck ex rc s) := by
  have hFinish :
      ∀ s : InflStream, EndDrained (inflateFinish s) := by
    intro s
    unfold inflateFinish
    simp only
    split
    · exact inflateTrailer_drained _
    · exact nofun
  unfold inflateCheck
  split
  · exact nofun
  · split
    · exact nofun
    · split
      · exact nofun
      · exact hFinish _

/- An answer without a DDCB. -/
theorem PrepareOutcome.drained
    {flush : Flush}
    {s : InflStream}
    {result : Sum (Rc × InflStream) InflStream}
    (hOutcome : PrepareOutcome flush s result) :
    ∀ ret, result = .inl ret → EndDrained ret := by
  intro ret hLeft
  cases hOutcome with
  | trailer _ _ _ =>
      cases hLeft
      exact inflateTrailer_drained _
  | header _ _ _ _ hHeader hRc =>
      cases hLeft
      intro hEnd
      rcases (inflateHeader_passed hHeader).2 with
        rfl | rfl | rfl
      · exact absurd rfl hRc
      · cases hEnd
      · cases hEnd
  | noInput _ _ _ _ _ _ _ _ =>
      cases hLeft
      intro hEnd
      simp only [inflateChkRet] at hEnd
      split at hEnd
      · rename_i hDone
        exact hDone.2
      · cases hEnd
  | tooLarge _ =>
      cases hLeft
      exact nofun
  | overrun _ _ =>
      cases hLeft
      exact nofun
  | full _ _ _ _ =>
      cases hLeft
      exact nofun
  | block _ _ _ _ _ _ =>
      cases hLeft
      exact nofun
  | ready _ _ _ _ _ _ _ => cases hLeft

/-
  Whatever state a call is made in, at `Z_STREAM_END` no output
  is parked.
-/
theorem zedcInflate_streamEnd
    {flush : Flush}
    {env : InflateEnv}
    {s : InflStream}
    {ret : InflRet}
    (hCall : zedcInflate flush env s = some ret)
    (hEnd : ret.rc = .streamEnd) :
    ret.strm.dict.obytesInDict = 0 := by
  unfold zedcInflate at hCall
  cases hPrepare : inflatePrepare flush s with
  | none =>
      rw [hPrepare] at hCall
      cases hCall
  | some result =>
      have hOutcome := inflatePrepare_outcome hPrepare
      rw [hPrepare] at hCall
      rcases result with ⟨rc, s₁⟩ | s₁
      · cases hCall
        exact hOutcome.drained _ rfl hEnd
      · cases inflateSubmit_outcome hCall with
        | needDict _ => cases hEnd
        | failed _ => cases hEnd
        | done _ _ => exact inflateCheck_drained _ _ _ hEnd

end Zedc
