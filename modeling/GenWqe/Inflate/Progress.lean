import GenWqe.Inflate.Accounts

/-
  Calls of `zedc_inflate` that get on: what a call changes
  that is answered without an error and leaves input.

  Key definitions include:
    * `TrailerInside`
    * `Progress`

  Main results:
    * `zedcInflate_trailerInside`
    * `zedcInflate_tooLarge`
    * `zedcInflate_progress`
-/

------------------------------------------------------------
-- The Trailer
------------------------------------------------------------

namespace Zedc

/- No more of the trailer was taken than there is. -/
def TrailerInside (s : InflStream) : Prop :=
  s.postfx.idx ≤ s.postfx.len

theorem TrailerInside.congr
    {s s' : InflStream}
    (hInside : TrailerInside s)
    (hSame : s'.postfx = s.postfx) :
    TrailerInside s' := by
  unfold TrailerInside
  rw [hSame]
  exact hInside

theorem remTrailerPrepare_inside
    {s : InflStream}
    (hInside : TrailerInside s) :
    TrailerInside (remTrailerPrepare s) := by
  unfold remTrailerPrepare
  split
  · exact Nat.zero_le _
  · exact hInside

theorem inflateFormatRemTrailer_inside
    {s s' : InflStream}
    {rc : TrailerRc}
    (hInside : TrailerInside s)
    (hRemove : inflateFormatRemTrailer s = (rc, s')) :
    TrailerInside s' := by
  unfold inflateFormatRemTrailer at hRemove
  by_cases hDefl : s.format = .defl
  · rw [if_pos hDefl] at hRemove
    cases hRemove
    exact hInside
  · rw [if_neg hDefl] at hRemove
    have hKind : (remTrailerPrepare s).format ≠ .defl := by
      unfold remTrailerPrepare
      split <;> exact hDefl
    cases hLoop :
        remTrailerLoop (remTrailerPrepare s).nextIn
          (remTrailerPrepare s) with
    | mk result s₂ =>
        have hLe :=
          (remTrailerLoop_spec hKind rfl
            (remTrailerPrepare_inside hInside) hLoop).2.1
        simp only [hLoop] at hRemove
        cases result with
        | some rc =>
            cases hRemove
            exact hLe
        | none =>
            simp only at hRemove
            split at hRemove <;> cases hRemove <;> exact hLe

theorem inflateTrailer_inside
    {s : InflStream}
    (hInside : TrailerInside s) :
    TrailerInside (inflateTrailer s).2 := by
  unfold inflateTrailer
  cases hRemove : inflateFormatRemTrailer s with
  | mk rc s₁ =>
      have hLe := inflateFormatRemTrailer_inside hInside hRemove
      cases rc with
      | failed rc => exact hLe
      | mustReenter => exact hLe
      | removed =>
          simp only
          split <;> exact hLe

/- The trailer is left for later only without input. -/
theorem inflateTrailer_ok
    {s : InflStream}
    (hInside : TrailerInside s)
    (hOk : (inflateTrailer s).1 = .ok) :
    (inflateTrailer s).2.nextIn = [] ∨
      s.dict.obytesInDict ≠ 0 := by
  unfold inflateTrailer at hOk ⊢
  cases hRemove : inflateFormatRemTrailer s with
  | mk rc s₁ =>
      rw [hRemove] at hOk
      have hLe := inflateFormatRemTrailer_inside hInside hRemove
      rcases inflateFormatRemTrailer_passed hRemove with
        ⟨k, hPassed⟩
      have hDict : s₁.dict = s.dict := by
        rw [hPassed.strm]
        rfl
      cases rc with
      | failed rc => cases hOk
      | mustReenter =>
          rcases inflateFormatRemTrailer_more hRemove with
            ⟨hNone, -⟩ | hOver
          · exact Or.inl hNone
          · exact absurd hLe (Nat.not_le.mpr hOver)
      | removed =>
          simp only at hOk
          split at hOk
          · cases hOk
          · rename_i hSome
            rw [hDict] at hSome
            exact Or.inr hSome

@[simp] theorem inflateEobSeen_postfx (s : InflStream) :
    (inflateEobSeen s).postfx = s.postfx := by
  unfold inflateEobSeen
  split <;> rfl

@[simp] theorem inflateEobSeen_dict (s : InflStream) :
    (inflateEobSeen s).dict = s.dict := by
  unfold inflateEobSeen
  split <;> rfl

------------------------------------------------------------
-- The Trailer Between Calls
------------------------------------------------------------

theorem inflateCheck_trailerInside
    {s : InflStream}
    (ex : InflExchange)
    (rc : Rc)
    (hInside : TrailerInside s) :
    TrailerInside (inflateCheck ex rc s).2 := by
  have hFinish : TrailerInside
      (inflateFinish (inflateStore ex s)).2 := by
    have hEob : TrailerInside
        (inflateEobSeen ((inflateStore ex s).advance
          (inflateStore ex s).inpDataOffs)) := by
      apply hInside.congr
      rw [inflateEobSeen_postfx]
      rfl
    unfold inflateFinish
    simp only
    split
    · exact inflateTrailer_inside hEob
    · exact hEob
  unfold inflateCheck
  split
  · exact hInside
  · split
    · exact hInside
    · split
      · exact hInside
      · exact hFinish

/- Executions leave the trailer alone. -/
theorem inflateExecute_postfx
    {flush : Flush} {env : InflateEnv}
    {s s₁ : InflStream} {exec : InflExec}
    (hExec : inflateExecute flush env s = (exec, s₁)) :
    s₁.postfx = s.postfx := by
  rcases inflateExecute_strm flush env s with ⟨pages, hStrm⟩
  rw [hExec] at hStrm
  simp only at hStrm
  rw [hStrm]
  rfl

theorem postScratchUpd_postfx
    {s s' : InflStream} {rc : Rc}
    (hUpdate : postScratchUpd s = some (rc, s')) :
    s'.postfx = s.postfx := by
  rw [(postScratchUpd_changes hUpdate).1.strm]

theorem inflateSubmit_trailerInside
    {flush : Flush} {env : InflateEnv}
    {s : InflStream} {ret : InflRet}
    (hInside : TrailerInside s)
    (hSubmit : inflateSubmit flush env s = some ret) :
    TrailerInside ret.strm := by
  cases inflateSubmit_outcome hSubmit with
  | @needDict s₁ hRun =>
      have hSame : s₁.postfx = s.postfx :=
        inflateExecute_postfx hRun
      exact hInside.congr hSame
  | failed hRun =>
      exact hInside.congr (inflateExecute_postfx hRun)
  | @done s₁ s₂ ex rc hRun hUpdate =>
      apply inflateCheck_trailerInside
      have hRunSame := inflateExecute_postfx hRun
      have hSame : (getInflateAsv ex.resp s₁).postfx =
          s.postfx := hRunSame
      exact hInside.congr
        ((postScratchUpd_postfx hUpdate).trans hSame)

theorem HeaderPassed.postfx
    {s s' : InflStream} {k : Nat}
    (hPassed : HeaderPassed s s' k) :
    s'.postfx = s.postfx := by
  rw [hPassed.strm]
  rfl

theorem Flushed.postfx
    {s s₁ : InflStream} {n : Nat}
    (hFlushed : Flushed s s₁ n) :
    s₁.postfx = s.postfx := by
  rw [hFlushed.strm]
  rfl

theorem HeaderDone.postfx
    {flush : Flush} {s s' : InflStream} {rc : Rc}
    (hHeader : HeaderDone flush s s' rc) :
    s'.postfx = s.postfx := by
  rcases (inflateHeader_passed hHeader).1 with ⟨k, hPassed⟩
  exact hPassed.postfx

/- The trailer stays inside through any call. -/
theorem zedcInflate_trailerInside
    {flush : Flush} {env : InflateEnv}
    {s : InflStream} {ret : InflRet}
    (hInside : TrailerInside s)
    (hCall : zedcInflate flush env s = some ret) :
    TrailerInside ret.strm := by
  unfold zedcInflate at hCall
  cases hPrepare : inflatePrepare flush s with
  | none =>
      rw [hPrepare] at hCall
      cases hCall
  | some result =>
      rw [hPrepare] at hCall
      cases inflatePrepare_outcome hPrepare with
      | tooLarge _ =>
          cases hCall
          exact hInside
      | overrun _ _ =>
          cases hCall
          exact hInside
      | @trailer s₁ n _ hFlushed _ =>
          cases hCall
          apply inflateTrailer_inside
          exact hInside.congr
            ((inflateEobSeen_postfx s₁).trans hFlushed.postfx)
      | full _ hFlushed _ _ =>
          cases hCall
          exact hInside.congr hFlushed.postfx
      | header _ hFlushed _ _ hHeader _ =>
          cases hCall
          exact hInside.congr
            (hHeader.postfx.trans hFlushed.postfx)
      | block _ hFlushed _ _ hHeader _ =>
          cases hCall
          exact hInside.congr
            (hHeader.postfx.trans hFlushed.postfx)
      | noInput _ hFlushed _ _ hHeader _ _ _ =>
          cases hCall
          exact hInside.congr
            (hHeader.postfx.trans hFlushed.postfx)
      | ready _ hFlushed _ _ hHeader _ _ =>
          apply inflateSubmit_trailerInside _ hCall
          exact hInside.congr
            (hHeader.postfx.trans hFlushed.postfx)

------------------------------------------------------------
-- The Header Between Calls
------------------------------------------------------------

/- A header is only refused for a byte that is passed. -/
theorem remHeaderLoop_shorter
    {bs : List UInt8}
    {s s' : InflStream}
    {rc : Rc}
    (hBytes : s.nextIn = bs)
    (hLoop : remHeaderLoop bs s = some (rc, s'))
    (hRc : rc ≠ .ok) :
    s'.nextIn.length < s.nextIn.length := by
  cases bs with
  | nil =>
      cases hLoop
      exact absurd rfl hRc
  | cons b rest =>
      have hSome : s.nextIn ≠ [] := by simp [hBytes]
      have hPos := List.length_pos_iff.mpr hSome
      unfold remHeaderLoop at hLoop
      cases hByte : inflateRemHeaderByte b s with
      | none =>
          rw [hByte] at hLoop
          cases hLoop
      | some result =>
          rcases result with ⟨hdrRc, s₁⟩
          have hTaken := inflateRemHeaderByte_keeps hByte
          have hNextIn : s₁.nextIn = s.nextIn :=
            (congrArg InflStream.nextIn hTaken.strm :)
          have hPassed :
              s₁.passHeaderByte.nextIn.length <
                s.nextIn.length := by
            simp only [InflStream.passHeaderByte,
              InflStream.advance, List.length_drop, hNextIn]
            omega
          rw [hByte] at hLoop
          cases hdrRc with
          | ok =>
              cases hLoop
              exact hPassed
          | error =>
              cases hLoop
              exact hPassed
          | zlibNeedDict =>
              cases hLoop
              exact hPassed
          | needMoreData =>
              have hBehind :
                  s₁.passHeaderByte.nextIn = rest := by
                simp [InflStream.passHeaderByte,
                  InflStream.advance, hNextIn, hBytes]
              rcases (remHeaderLoop_spec hBehind hLoop).1 with
                ⟨k, hRest⟩
              have hLen :
                  s'.nextIn.length ≤
                    s₁.passHeaderByte.nextIn.length := by
                rw [hRest.strm]
                simp only [InflStream.advance,
                  List.length_drop]
                omega
              exact Nat.lt_of_le_of_lt hLen hPassed

theorem HeaderDone.shorter
    {flush : Flush} {s s' : InflStream} {rc : Rc}
    (hHeader : HeaderDone flush s s' rc)
    (hRc : rc ≠ .ok) :
    s'.nextIn.length < s.nextIn.length := by
  unfold HeaderDone inflateHeader at hHeader
  split at hHeader
  · unfold inflateFormatRemHeader at hHeader
    split at hHeader
    · cases hHeader
      exact absurd rfl hRc
    · have hNextIn : (remHeaderPrepare s).nextIn = s.nextIn := by
        unfold remHeaderPrepare
        split <;> rfl
      cases hLoop :
          remHeaderLoop s.nextIn (remHeaderPrepare s) with
      | none =>
          rw [hLoop] at hHeader
          cases hHeader
      | some result =>
          rcases result with ⟨rc₁, s₁⟩
          rw [hLoop] at hHeader
          have hRcSame : rc₁ = rc ∧ s'.nextIn = s₁.nextIn := by
            simp only at hHeader
            split at hHeader <;> cases hHeader <;>
              exact ⟨rfl, rfl⟩
          rcases hRcSame with ⟨rfl, hSame⟩
          rw [hSame, ← hNextIn]
          exact remHeaderLoop_shorter hNextIn hLoop hRc
  · cases hHeader
    exact absurd rfl hRc

------------------------------------------------------------
-- The Results Between Calls
------------------------------------------------------------

/-
  All input is used, or the output space is, or the final block
  was seen.
-/
def UsedUp (s : InflStream) : Prop :=
  s.availIn ≤ s.inpDataOffs ∨
    s.availOut ≤ s.asv.outpReturned ∨ s.eobSeen = true

theorem UsedUp.restore
    {s : InflStream}
    (hUsed : UsedUp s) :
    UsedUp (restoreStored s) := by
  unfold restoreStored
  split
  · exact hUsed
  · exact hUsed

/- With space left, the scratch takes all of the input. -/
theorem scratchUpdate_usedUp
    {s s' : InflStream}
    (hUpdate : scratchUpdate s = some s') :
    UsedUp s' := by
  have hTake :
      s.availIn ≤ s.scratchTake.2 ∨
        s.availOut ≤ s.asv.outpReturned := by
    unfold InflStream.scratchTake
    simp only
    split
    · exact Or.inl (Nat.le_refl _)
    · rename_i hFull
      exact Or.inr (Nat.not_lt.mp hFull)
  unfold scratchUpdate at hUpdate
  simp only at hUpdate
  split at hUpdate
  · cases hUpdate
  · cases hUpdate
    rcases hTake with hIn | hOut
    · exact Or.inl hIn
    · exact Or.inr (Or.inl hOut)

theorem setupTreeNew_usedUp
    {s s' : InflStream}
    (hSetup : setupTreeNew s = some s') :
    UsedUp s' := by
  unfold setupTreeNew at hSetup
  split at hSetup
  · split at hSetup
    · cases hSetup
    · exact scratchUpdate_usedUp hSetup
  · exact scratchUpdate_usedUp hSetup

theorem setupTree_usedUp
    {s s' : InflStream}
    (hSetup : setupTree s = some s') :
    UsedUp s' := by
  unfold setupTree at hSetup
  split at hSetup
  · cases hSetup
    exact Or.inr (Or.inr rfl)
  · exact setupTreeNew_usedUp hSetup

/- Every update behind a completed DDCB. -/
theorem postScratchUpd_usedUp
    {s s' : InflStream}
    (hUpdate : postScratchUpd s = some (.ok, s')) :
    UsedUp s' := by
  unfold postScratchUpd at hUpdate
  split at hUpdate
  · split at hUpdate
    · cases hUpdate
    · rename_i s₁ hSetup
      cases hUpdate
      exact (setupTree_usedUp hSetup).restore
  · unfold collectScratch at hUpdate
    split at hUpdate
    · cases hUpdate
    · split at hUpdate
      · rename_i hNone
        cases hUpdate
        have hUsed : UsedUp s := Or.inl (hNone ▸ Nat.zero_le _)
        exact hUsed.restore
      · split at hUpdate
        · cases hUpdate
        · cases hUpdate
          apply UsedUp.restore
          exact Or.inl (Nat.le_add_left _ _)

------------------------------------------------------------
-- Calls That Get On
------------------------------------------------------------

/-
  Input is taken, output is given, or bytes wait at the end of
  the dictionary where none did.
-/
def Progress (h h' : InflStream) : Prop :=
  h'.nextIn.length < h.nextIn.length ∨
    h'.availOut < h.availOut ∨
    (h.dict.obytesInDict = 0 ∧ h'.dict.obytesInDict ≠ 0)

/- The answer with which a call does not end the loop. -/
structure GoesOn (ret : InflRet) : Prop where
  needDict : ret.rc ≠ .needDict
  streamError : ret.rc ≠ .streamError
  dataError : ret.rc ≠ .dataError
  streamEnd : ret.rc ≠ .streamEnd
  block : ret.strm.dataType80 = false
  input : ret.strm.nextIn ≠ []

/- The trailer is left only behind bytes that wait. -/
theorem inflateTrailer_goesOn
    {s : InflStream}
    {ex : Option InflExchange}
    (hInside : TrailerInside s)
    (hOn :
      GoesOn ⟨(inflateTrailer s).1, (inflateTrailer s).2, ex⟩) :
    s.dict.obytesInDict ≠ 0 ∧
      (inflateTrailer s).2.dict = s.dict := by
  rcases inflateTrailer_passed s with ⟨⟨k, hPassed⟩, hRc⟩
  have hDict : (inflateTrailer s).2.dict = s.dict := by
    rw [hPassed.strm]
    rfl
  refine ⟨?_, hDict⟩
  rcases hRc with hOk | hErr | hEnd
  · rcases inflateTrailer_ok hInside hOk with hNone | hSome
    · exact absurd hNone hOn.input
    · exact hSome
  · exact absurd hErr hOn.dataError
  · exact absurd hEnd.1 hOn.streamEnd

/- Where bytes still wait, all of the space is used. -/
theorem Flushed.availOut_lt
    {s s₁ : InflStream} {n : Nat}
    (hFlushed : Flushed s s₁ n)
    (hSpace : s.availOut ≠ 0)
    (hPending : s₁.dict.obytesInDict ≠ 0) :
    s₁.availOut < s.availOut := by
  have hAll := hFlushed.all
  rw [hFlushed.strm] at hPending ⊢
  simp only [InflStream.giveOut] at hPending ⊢
  omega

theorem inflateEobSeen_of_not
    {s : InflStream}
    (hEob : ¬(inflateEobSeen s).eobSeen = true) :
    ¬s.eobSeen = true ∧ inflateEobSeen s = s := by
  unfold inflateEobSeen at hEob ⊢
  split at hEob
  · exact absurd rfl hEob
  · rename_i hStat
    exact ⟨hEob, if_neg hStat⟩

/-
  Results that are accepted give output, or leave some of it
  in the dictionary.
-/
theorem inflateCheck_goesOn
    {ex : InflExchange}
    {rc : Rc}
    {s : InflStream}
    (hInside : TrailerInside s)
    (hUsed : rc = .ok → UsedUp s)
    (hRc : rc = .ok ∨ rc = .errTreeOverrun)
    (hSpace : s.availOut ≠ 0)
    (hOn :
      GoesOn
        ⟨(inflateCheck ex rc s).1, (inflateCheck ex rc s).2,
          some ex⟩) :
    (inflateCheck ex rc s).2.availOut < s.availOut ∨
      (inflateCheck ex rc s).2.dict.obytesInDict ≠ 0 := by
  rcases hRc with rfl | rfl
  · have hUsed := hUsed rfl
    unfold inflateCheck at hOn ⊢
    rw [if_neg (by decide)] at hOn ⊢
    split at hOn
    · exact absurd rfl hOn.streamError
    · rename_i hFits
      split at hOn
      · exact absurd rfl hOn.streamError
      · rename_i hOffs
        rw [if_neg hFits, if_neg hOffs]
        unfold inflateFinish at hOn ⊢
        simp only at hOn ⊢
        have hBehind : TrailerInside
            (inflateEobSeen ((inflateStore ex s).advance
              (inflateStore ex s).inpDataOffs)) := by
          apply hInside.congr
          rw [inflateEobSeen_postfx]
          rfl
        split at hOn
        · rename_i hEob
          rw [if_pos hEob]
          rcases inflateTrailer_goesOn hBehind hOn with
            ⟨hSome, hDict⟩
          right
          rw [hDict]
          exact hSome
        · rename_i hEob
          rw [if_neg hEob]
          rcases inflateEobSeen_of_not hEob with
            ⟨hNotSeen, hSame⟩
          rw [hSame] at hOn ⊢
          have hLen := List.length_pos_iff.mpr hOn.input
          simp only [InflStream.advance, inflateStore,
            List.length_drop] at hLen ⊢
          left
          rcases hUsed with hIn | hOut | hSeen
          · unfold InflStream.availIn at hIn
            omega
          · omega
          · exact absurd hSeen hNotSeen
  · exact absurd rfl hOn.streamError

/- The input and the output space a DDCB was made for. -/
theorem inflateSubmit_goesOn
    {flush : Flush} {env : InflateEnv}
    {s : InflStream} {ret : InflRet}
    (hInside : TrailerInside s)
    (hSpace : s.availOut ≠ 0)
    (hSubmit : inflateSubmit flush env s = some ret)
    (hOn : GoesOn ret) :
    ret.strm.availOut < s.availOut ∨
      ret.strm.dict.obytesInDict ≠ 0 := by
  cases inflateSubmit_outcome hSubmit with
  | needDict _ => exact absurd rfl hOn.needDict
  | failed _ => exact absurd rfl hOn.streamError
  | @done s₁ s₂ ex rc hRun hUpdate =>
      rcases postScratchUpd_changes hUpdate with
        ⟨hChanged, hRc⟩
      rcases inflateExecute_strm flush env s with
        ⟨pages, hStrm⟩
      rw [hRun] at hStrm
      simp only at hStrm
      have hSame :
          s₂.postfx = s.postfx ∧ s₂.availOut = s.availOut := by
        rw [hChanged.strm, hStrm]
        exact ⟨rfl, rfl⟩
      rw [← hSame.2] at hSpace ⊢
      exact inflateCheck_goesOn (hInside.congr hSame.1)
        (fun hOk => postScratchUpd_usedUp (hOk ▸ hUpdate))
        hRc hSpace hOn

/- A call that neither ends nor fails gets on. -/
theorem zedcInflate_progress
    {flush : Flush} {env : InflateEnv}
    {s : InflStream} {ret : InflRet}
    (hInside : TrailerInside s)
    (hSmall : s.availIn ≤ zedcInflAvailInMax)
    (hSpace : s.availOut ≠ 0)
    (hCall : zedcInflate flush env s = some ret)
    (hOn : GoesOn ret) :
    Progress s ret.strm := by
  unfold zedcInflate at hCall
  cases hPrepare : inflatePrepare flush s with
  | none =>
      rw [hPrepare] at hCall
      cases hCall
  | some result =>
      rw [hPrepare] at hCall
      cases inflatePrepare_outcome hPrepare with
      | tooLarge hLarge =>
          exact absurd hLarge (Nat.not_lt.mpr hSmall)
      | overrun _ _ =>
          cases hCall
          exact absurd rfl hOn.streamError
      | @trailer s₁ n _ hFlushed _ =>
          cases hCall
          have hBehind : TrailerInside (inflateEobSeen s₁) :=
            hInside.congr ((inflateEobSeen_postfx s₁).trans
              hFlushed.postfx)
          rcases inflateTrailer_goesOn hBehind hOn with
            ⟨hSome, -⟩
          rw [inflateEobSeen_dict] at hSome
          have hLess := hFlushed.availOut_lt hSpace hSome
          have hMoves :=
            inflateTrailer_moves (inflateEobSeen s₁)
          rw [account_inflateEobSeen] at hMoves
          exact Or.inr (Or.inl
            (Nat.lt_of_le_of_lt hMoves.shrinks.2 hLess))
      | full _ hFlushed _ hFull =>
          cases hCall
          right
          left
          simp only [hFull]
          exact Nat.pos_of_ne_zero hSpace
      | header _ hFlushed _ _ hHeader hRc =>
          cases hCall
          exact Or.inl (Nat.lt_of_lt_of_le
            (hHeader.shorter hRc) hFlushed.moves.shrinks.1)
      | block _ _ _ _ _ hBlock =>
          cases hCall
          rw [hOn.block] at hBlock
          cases hBlock
      | noInput _ _ _ _ _ _ hNone _ =>
          cases hCall
          exact absurd (List.eq_nil_of_length_eq_zero hNone)
            hOn.input
      | @ready s₁ s₂ n _ hFlushed _ hRoom hHeader _ _ =>
          have hBehind : TrailerInside s₂ :=
            hInside.congr
              (hHeader.postfx.trans hFlushed.postfx)
          rcases (inflateHeader_passed hHeader).1 with
            ⟨k, hPassed⟩
          have hOut : s₂.availOut = s₁.availOut := by
            rw [hPassed.strm]
            rfl
          rw [← hOut] at hRoom
          have hLess := hFlushed.moves.shrinks.2
          simp only [InflStream.account] at hLess
          rcases inflateSubmit_goesOn hBehind hRoom hCall hOn
            with hGiven | hSome
          · exact Or.inr (Or.inl (by omega))
          · by_cases hNone : s.dict.obytesInDict = 0
            · exact Or.inr (Or.inr ⟨hNone, hSome⟩)
            · right
              left
              have hMoves :=
                (inflateSubmit_moves hCall).shrinks.2
              simp only [InflStream.account] at hMoves
              have hAll := hFlushed.all
              have hRoom₁ : s₁.availOut ≠ 0 := hOut ▸ hRoom
              rw [hFlushed.strm] at hRoom₁ hOut
              simp only [InflStream.giveOut] at hRoom₁ hOut
              omega

/- Without a limit on the input a call does nothing. -/
theorem zedcInflate_tooLarge
    {s : InflStream}
    (flush : Flush)
    (env : InflateEnv)
    (hLarge : zedcInflAvailInMax < s.availIn) :
    zedcInflate flush env s = some ⟨.memError, s, none⟩ := by
  unfold zedcInflate inflatePrepare
  rw [if_pos hLarge]

end Zedc
