import GenWqe.Inflate.Accounts

/-
  The lengths of the parts of the save area, which every call
  of `zedc_inflate` keeps in order, whatever the card answers.

  Key definitions include:
    * `ScratchInv`

  Main results:
    * `postScratchUpd_inv`
    * `zedcInflate_inv`
-/

------------------------------------------------------------
-- The Scratch
------------------------------------------------------------

namespace Zedc

/-
  The lengths of the save area between calls, whatever the
  card has answered: without a tree there is nothing in front
  of the scratch, which fills up whole bytes. Behind the final
  block the scratch is given up.
-/
structure ScratchInv (s : InflStream) : Prop where
  scratchIb : s.save.scratchIb < 8
  noTree :
    s.save.treeBits = 0 →
      s.save.hdrIb = 0 ∧ s.save.padBits = 0
  whole :
    (s.save.scratchIb + s.save.scratchBits) % 8 = 0 ∨
      s.save.scratchBits = 0 ∧ s.eobSeen = true

/- The save area is what counts, and that the end was seen. -/
theorem ScratchInv.congr
    {s s' : InflStream}
    (hInv : ScratchInv s)
    (hSave : s'.save = s.save)
    (hSeen : s.eobSeen = true → s'.eobSeen = true) :
    ScratchInv s' := by
  refine ⟨?_, ?_, ?_⟩
  · rw [hSave]
    exact hInv.scratchIb
  · rw [hSave]
    exact hInv.noTree
  · rw [hSave]
    exact hInv.whole.imp_right fun hEnd =>
      ⟨hEnd.1, hSeen hEnd.2⟩

/- The scratch is filled up to whole bytes by its ignored bits. -/
theorem scratchUpdate_inv
    {s s' : InflStream}
    (hTree :
      s.save.treeBits = 0 →
        s.save.hdrIb = 0 ∧ s.save.padBits = 0)
    (hUpdate : scratchUpdate s = some s') :
    ScratchInv s' := by
  unfold scratchUpdate at hUpdate
  generalize s.scratchTake = kept at hUpdate
  rcases kept with ⟨cnt, inpDataOffs⟩
  simp only at hUpdate
  split at hUpdate
  · cases hUpdate
  · cases hUpdate
    refine ⟨Nat.mod_lt _ (by decide), hTree, Or.inl ?_⟩
    simp only [wrapSub]
    omega

/- At the end of a block there is neither tree nor padding. -/
theorem setupTreeEob_noTree
    {s : InflStream}
    (hTree :
      s.save.treeBits = 0 →
        s.save.hdrIb = 0 ∧ s.save.padBits = 0) :
    ((setupTreeEob s).save.treeBits = 0 →
      (setupTreeEob s).save.hdrIb = 0 ∧
        (setupTreeEob s).save.padBits = 0) ∧
      (setupTreeEob s).save.scratchIb = s.save.scratchIb ∧
      (setupTreeEob s).save.scratchBits =
        s.save.scratchBits := by
  unfold setupTreeEob
  split
  · split <;> exact ⟨fun _ => ⟨rfl, rfl⟩, rfl, rfl⟩
  · exact ⟨hTree, rfl, rfl⟩

/-
  Both ways of `setup_tree`: behind the final block nothing is
  kept, else a header, and the scratch behind it.
-/
theorem setupTree_inv
    {s s' : InflStream}
    (hInv : ScratchInv s)
    (hSetup : setupTree s = some s') :
    ScratchInv s' := by
  rcases setupTreeEob_noTree hInv.noTree with
    ⟨hTree, hIb, _⟩
  unfold setupTree at hSetup
  split at hSetup
  -- the end of the final block: the scratch is given up
  · cases hSetup
    refine ⟨?_, hTree, Or.inr ⟨rfl, rfl⟩⟩
    change (setupTreeEob s).save.scratchIb < 8
    rw [hIb]
    exact hInv.scratchIb
  · unfold setupTreeNew at hSetup
    split at hSetup
    · rename_i hNew
      have hSome : 0 < (setupTreeEob s).asv.outHdrBits := by
        unfold InflStream.newHeader at hNew
        simp only [Bool.and_eq_true, decide_eq_true_eq]
          at hNew
        exact hNew.1
      cases hExtract : extractNewTree (setupTreeEob s) with
      | none =>
          rw [hExtract] at hSetup
          cases hSetup
      | some s₁ =>
          rw [hExtract] at hSetup
          refine scratchUpdate_inv (fun hZero => ?_) hSetup
          unfold extractNewTree at hExtract
          simp only at hExtract
          split at hExtract
          · cases hExtract
          · cases hExtract
            exact absurd hZero (Nat.pos_iff_ne_zero.mp hSome)
    · exact scratchUpdate_inv hTree hSetup

/- The header for the rest of a stored block is a tree. -/
theorem restoreStored_inv
    {s : InflStream}
    (hInv : ScratchInv s) :
    ScratchInv (restoreStored s) := by
  unfold restoreStored
  split
  · exact ⟨hInv.scratchIb, nofun, hInv.whole⟩
  · exact hInv

/- The results of a DDCB, before the final block is over. -/
theorem postScratchUpd_inv
    {s s' : InflStream}
    {rc : Rc}
    (hInv : ScratchInv s)
    (hMore : s.eobSeen = false)
    (hUpdate : postScratchUpd s = some (rc, s')) :
    ScratchInv s' := by
  have hWhole :
      (s.save.scratchIb + s.save.scratchBits) % 8 = 0 := by
    refine hInv.whole.resolve_right fun hEnd => ?_
    rw [hMore] at hEnd
    exact absurd hEnd.2 (by decide)
  unfold postScratchUpd at hUpdate
  split at hUpdate
  · split at hUpdate
    · cases hUpdate
    · rename_i s₁ hSetup
      cases hUpdate
      have hUsed :
          ScratchInv
            { s with
              inDataUsed :=
                inpProcUpdate s.asv.inpProcessed
                  s.asv.procBits s.preScratchBits } :=
        hInv.congr rfl id
      exact restoreStored_inv (setupTree_inv hUsed hSetup)
  -- nothing was processed: whole bytes are appended
  · unfold collectScratch at hUpdate
    split at hUpdate
    · cases hUpdate
      exact hInv
    · split at hUpdate
      · cases hUpdate
        exact restoreStored_inv hInv
      · split at hUpdate
        · cases hUpdate
        · cases hUpdate
          apply restoreStored_inv
          refine ⟨hInv.scratchIb, hInv.noTree, Or.inl ?_⟩
          simp only
          omega

------------------------------------------------------------
-- A Whole Call
------------------------------------------------------------

/- The end stays seen. -/
theorem inflateEobSeen_seen
    {s : InflStream}
    (hSeen : s.eobSeen = true) :
    (inflateEobSeen s).eobSeen = true := by
  unfold inflateEobSeen
  split
  · rfl
  · exact hSeen

/- The trailer leaves the save area alone. -/
theorem inflateTrailer_inv
    {s : InflStream}
    (hInv : ScratchInv s) :
    ScratchInv (inflateTrailer s).2 := by
  rcases (inflateTrailer_passed s).1 with ⟨k, hPassed⟩
  rw [hPassed.strm]
  exact hInv.congr rfl id

/- Noting it leaves the save area alone. -/
theorem inflateEobSeen_inv
    {s : InflStream}
    (hInv : ScratchInv s) :
    ScratchInv (inflateEobSeen s) := by
  refine hInv.congr ?_ inflateEobSeen_seen
  unfold inflateEobSeen
  split <;> rfl

/- So does output that was parked. -/
theorem Flushed.inv
    {s s₁ : InflStream}
    {n : Nat}
    (hFlushed : Flushed s s₁ n)
    (hInv : ScratchInv s) :
    ScratchInv s₁ := by
  rw [hFlushed.strm]
  exact hInv.congr rfl id

/- And so does the header of the format. -/
theorem HeaderPassed.inv
    {s s₁ : InflStream}
    {k : Nat}
    (hPassed : HeaderPassed s s₁ k)
    (hInv : ScratchInv s) :
    ScratchInv s₁ := by
  rw [hPassed.strm]
  exact hInv.congr rfl id

/- A DDCB is only built before the final block is over. -/
theorem PrepareOutcome.inv
    {flush : Flush}
    {s : InflStream}
    {result : Sum (Rc × InflStream) InflStream}
    (hInv : ScratchInv s)
    (hOutcome : PrepareOutcome flush s result) :
    ScratchInv (preparedInfl result) ∧
      (∀ s₁, result = .inr s₁ → s₁.eobSeen = false) := by
  have hHeader :
      ∀ {s₁ s₂ : InflStream} {n : Nat} {rc : Rc},
        Flushed s s₁ n →
          HeaderDone flush s₁ s₂ rc →
            ScratchInv s₂ ∧ s₂.eobSeen = s₁.eobSeen := by
    intro s₁ s₂ n rc hFlushed hDone
    rcases (inflateHeader_passed hDone).1 with ⟨k, hPassed⟩
    refine ⟨hPassed.inv (hFlushed.inv hInv), ?_⟩
    rw [hPassed.strm]
    rfl
  cases hOutcome with
  | tooLarge _ =>
      exact ⟨hInv, fun _ hEq => (Sum.inl_ne_inr hEq).elim⟩
  | overrun _ _ =>
      exact ⟨hInv.congr rfl id,
        fun _ hEq => (Sum.inl_ne_inr hEq).elim⟩
  | trailer _ hFlushed _ =>
      exact ⟨inflateTrailer_inv
        (inflateEobSeen_inv (hFlushed.inv hInv)),
        fun _ hEq => (Sum.inl_ne_inr hEq).elim⟩
  | full _ hFlushed _ _ =>
      exact ⟨hFlushed.inv hInv,
        fun _ hEq => (Sum.inl_ne_inr hEq).elim⟩
  | header _ hFlushed _ _ hDone _ =>
      exact ⟨(hHeader hFlushed hDone).1,
        fun _ hEq => (Sum.inl_ne_inr hEq).elim⟩
  | block _ hFlushed _ _ hDone _ =>
      exact ⟨(hHeader hFlushed hDone).1,
        fun _ hEq => (Sum.inl_ne_inr hEq).elim⟩
  | noInput _ hFlushed _ _ hDone _ _ _ =>
      exact ⟨(hHeader hFlushed hDone).1,
        fun _ hEq => (Sum.inl_ne_inr hEq).elim⟩
  | ready _ hFlushed hData _ hDone _ _ =>
      rcases hHeader hFlushed hDone with ⟨hInv₂, hSeen⟩
      refine ⟨hInv₂, fun s₁ hEq => ?_⟩
      cases hEq
      exact hSeen.trans hData.eobSeen

/- The checks of the results do not touch the save area. -/
theorem inflateCheck_inv
    {s : InflStream}
    (ex : InflExchange) (rc : Rc)
    (hInv : ScratchInv s) :
    ScratchInv (inflateCheck ex rc s).2 := by
  have hFinish :
      ∀ s : InflStream,
        ScratchInv s → ScratchInv (inflateFinish s).2 := by
    intro s hInv
    have hTaken :
        ScratchInv
          (inflateEobSeen (s.advance s.inpDataOffs)) :=
      inflateEobSeen_inv (hInv.congr rfl id)
    unfold inflateFinish
    simp only
    split
    · exact inflateTrailer_inv hTaken
    · exact hTaken
  have hStore : ScratchInv (inflateStore ex s) :=
    hInv.congr rfl id
  unfold inflateCheck
  split
  · exact hInv
  · split
    · exact hInv
    · split
      · exact hStore
      · exact hFinish _ hStore

/- Every call of `zedc_inflate` keeps the lengths in order. -/
theorem zedcInflate_inv
    {flush : Flush}
    {env : InflateEnv}
    {s : InflStream}
    {ret : InflRet}
    (hInv : ScratchInv s)
    (hCall : zedcInflate flush env s = some ret) :
    ScratchInv ret.strm := by
  unfold zedcInflate at hCall
  cases hPrepare : inflatePrepare flush s with
  | none =>
      rw [hPrepare] at hCall
      cases hCall
  | some result =>
      have hPrepared :=
        (inflatePrepare_outcome hPrepare).inv hInv
      rw [hPrepare] at hCall
      rcases result with ⟨rc, s₁⟩ | s₁
      · cases hCall
        exact hPrepared.1
      have hExec :
          ∀ {exec : InflExec} {s₂ : InflStream},
            inflateExecute flush env s₁ = (exec, s₂) →
              ScratchInv s₂ ∧ s₂.eobSeen = false := by
        intro exec s₂ hExec
        rcases inflateExecute_strm flush env s₁ with
          ⟨pages, hStrm⟩
        rw [hExec] at hStrm
        simp only at hStrm
        rw [hStrm]
        exact ⟨hPrepared.1.congr rfl id,
          hPrepared.2 s₁ rfl⟩
      cases inflateSubmit_outcome hCall with
      | needDict hRun => exact (hExec hRun).1.congr rfl id
      | failed hRun => exact (hExec hRun).1
      | @done s₂ s₃ ex rc hRun hUpdate =>
          rcases hExec hRun with ⟨hInv₂, hSeen⟩
          have hAsv :
              ScratchInv (getInflateAsv ex.resp s₂) :=
            hInv₂.congr rfl id
          exact inflateCheck_inv ex rc
            (postScratchUpd_inv hAsv hSeen hUpdate)

end Zedc
