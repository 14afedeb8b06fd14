import GenWqe.Hardware.Buffering

/-
  Errors of `zedc_deflate` within a call of `h_deflate`. With
  buffering on, `h_deflate` asks only whether all input was
  absorbed, so that a call which fails behind its input is
  taken for a good one.

  Key definitions include:
    * `madeCalls`
    * `TakesAll`, `SwallowedFailure`
    * `ErrorsReported`

  Main results:
    * `hDeflateLoop_negative_iff`
    * `errors_reported_iff`
-/

------------------------------------------------------------
-- Failures behind the Input
------------------------------------------------------------

namespace Hardware

open Zedc

/- The stream on the buffers that a call offers it. -/
def offered (c : DeflateCall) (h : DeflStream) : DeflStream :=
  { h with nextIn := c.nextIn, availOut := c.availOut }

/- The header of the stream has still to be added and is too
   long. -/
def HeaderTooLong (h : DeflStream) : Prop :=
  h.headerAdded = false ∧ h.format = .gzip ∧
    ∃ head, h.gzipHead = some head ∧
      gzipHeadTooLong head = true

/-
  The response to the request of a call, with the stream that
  takes its results, if it made one and it was executed.
-/
def answer
    (c : DeflateCall) (h : DeflStream) :
    Option (DeflResp × DeflStream) :=
  match deflatePrepare c.flush c.env.now (offered c h) with
  | .inl _ => none
  | .inr s =>
    match deflateExecute c.flush c.env s with
    | (none, _) => none
    | (some ex, s) =>
      if ex.resp.outDictOffs ≥ 16 then none
      else some (ex.resp, deflateTakeAsv ex.resp s)

/- All input is processed, or there is none. -/
def TakesAll (c : DeflateCall) (h : DeflStream) : Prop :=
  c.nextIn = [] ∨
    ∃ resp s, answer c h = some (resp, s) ∧
      resp.inpProcessed.toNat = c.nextIn.length

/- The output that a response reports is inconsistent. -/
def BadOutput (resp : DeflResp) (s : DeflStream) : Prop :=
  resp.outpReturned.toNat = 0 ∨
    resp.outpReturned.toNat > s.availOut ∨
    obitsInvalid s.dynHuffmanSupported
      resp.onumbits.toNat = true ∨
    (resp.outpReturned.toNat < s.availOut ∧
      resp.onumbits.toNat > 7)

/-
  A failure that leaves no input: the header is too long where
  there is none, or all of it is reported as processed together
  with an inconsistent output.
-/
def SwallowedFailure
    (c : DeflateCall) (h : DeflStream) : Prop :=
  (c.nextIn = [] ∧ HeaderTooLong h) ∨
    ∃ resp s, answer c h = some (resp, s) ∧
      resp.inpProcessed.toNat = c.nextIn.length ∧
      BadOutput resp s

section Failures

variable {c : DeflateCall} {h s : DeflStream}

theorem deflateAddHeader_true_iff
    (now : UInt32) (s : DeflStream) :
    (if s.headerAdded then (false, s)
        else deflateAddHeader now s).1 = true ↔
      HeaderTooLong s := by
  unfold HeaderTooLong
  cases hAdded : s.headerAdded with
  | true => simp
  | false =>
      simp only [Bool.false_eq_true, if_false, true_and]
      unfold deflateAddHeader
      cases hFormat : s.format with
      | defl => simp
      | zlib => simp
      | gzip =>
          cases hHead : s.gzipHead with
          | none => simp
          | some head =>
              cases hLong : gzipHeadTooLong head <;> simp [hLong]

theorem deflateExits_inl
    {rc : Rc}
    {s s' : DeflStream}
    (hExits : deflateExits s = .inl (rc, s')) :
    ¬ rc.IsNegative := by
  unfold deflateExits at hExits
  split at hExits
  · cases hExits
    decide
  · split at hExits
    · cases hExits
      decide
    · split at hExits
      · cases hExits
        decide
      · cases hExits

/- Before its request a call fails with the header only. -/
theorem deflatePrepare_negative_iff
    {flush : Flush}
    {now : UInt32}
    {rc : Rc}
    {s s' : DeflStream}
    (hPrepare : deflatePrepare flush now s = .inl (rc, s')) :
    rc.IsNegative ↔ HeaderTooLong s := by
  have hIff := deflateAddHeader_true_iff now s
  unfold deflatePrepare at hPrepare
  generalize
    (if s.headerAdded then (false, s)
      else deflateAddHeader now s) = added at *
  rcases added with ⟨_ | _, s₁⟩
  · refine iff_of_false ?_ (fun h => nomatch hIff.mpr h)
    simp only at hPrepare
    unfold deflatePrepareDrained at hPrepare
    split at hPrepare
    · cases hPrepare
      decide
    · exact deflateExits_inl hPrepare
  · cases hPrepare
    exact iff_of_true (by decide) (hIff.mp rfl)

/- Results fail with too much input or a bad output. -/
theorem deflateProcessResults_cases
    (resp : DeflResp) (s : DeflStream) :
    ((deflateProcessResults resp s).1.IsNegative ↔
      resp.inpProcessed.toNat > s.availIn ∨
        BadOutput resp s) ∧
    (deflateProcessResults resp s).2.nextIn =
      if resp.inpProcessed.toNat > s.availIn then s.nextIn
      else s.nextIn.drop resp.inpProcessed.toNat := by
  unfold deflateProcessResults BadOutput
  simp only
  have hNeg : Rc.IsNegative .errRetlen := by decide
  have hNeg' : Rc.IsNegative .errRetobits := by decide
  have hOk : ¬ Rc.IsNegative .ok := by decide
  by_cases hIn : resp.inpProcessed.toNat > s.availIn
  · rw [if_pos hIn, if_pos hIn]
    exact ⟨iff_of_true hNeg (Or.inl hIn), rfl⟩
  · rw [if_neg hIn, if_neg hIn]
    by_cases hOut : resp.outpReturned.toNat = 0 ∨
        resp.outpReturned.toNat > s.availOut
    · rw [if_pos hOut]
      refine ⟨iff_of_true hNeg (Or.inr ?_), rfl⟩
      exact hOut.imp_right Or.inl
    · rw [if_neg hOut]
      rw [not_or, Nat.not_lt] at hOut
      cases hBits :
          obitsInvalid s.dynHuffmanSupported
            resp.onumbits.toNat with
      | true =>
          simp only [if_true]
          exact ⟨iff_of_true hNeg'
            (Or.inr (Or.inr (Or.inr (Or.inl trivial)))),
            trivial⟩
      | false =>
          simp only [Bool.false_eq_true, if_false, false_or]
          by_cases hRest :
              s.availOut - resp.outpReturned.toNat ≠ 0 ∧
                resp.onumbits.toNat > 7
          · rw [if_pos hRest]
            refine ⟨iff_of_true hNeg' ?_, rfl⟩
            exact Or.inr (Or.inr (Or.inr
              ⟨by omega, hRest.2⟩))
          · rw [if_neg hRest]
            refine ⟨iff_of_false hOk ?_, rfl⟩
            omega

/- Without an answer, only a header can fail. -/
theorem takesAll_of_none
    (hNone : answer c h = none) :
    (TakesAll c h ↔ c.nextIn = []) ∧
      (SwallowedFailure c h ↔
        c.nextIn = [] ∧ HeaderTooLong h) := by
  unfold TakesAll SwallowedFailure
  simp [hNone]

/- With an answer, its numbers decide. -/
theorem takesAll_of_some
    {resp : DeflResp}
    (hSome : answer c h = some (resp, s))
    (hInput : c.nextIn ≠ []) :
    (TakesAll c h ↔
      resp.inpProcessed.toNat = c.nextIn.length) ∧
      (SwallowedFailure c h ↔
        resp.inpProcessed.toNat = c.nextIn.length ∧
          BadOutput resp s) := by
  unfold TakesAll SwallowedFailure
  simp [hSome, hInput]

/- What processing the answer leaves of the input. -/
theorem nextIn_results_iff
    (resp : DeflResp)
    (hNextIn : s.nextIn = c.nextIn)
    (hInput : c.nextIn ≠ []) :
    (deflateProcessResults resp s).2.nextIn = [] ↔
      resp.inpProcessed.toNat = c.nextIn.length := by
  have hPos := List.length_pos_of_ne_nil hInput
  rw [(deflateProcessResults_cases resp s).2]
  unfold DeflStream.availIn
  rw [hNextIn]
  split
  · exact iff_of_false hInput (by omega)
  · rw [List.drop_eq_nil_iff]
    omega

/-
  What a call leaves: no input exactly if it takes all, and a
  failure behind its input exactly in the cases named.
-/
theorem ret_cases (c : DeflateCall) (h : DeflStream) :
    ((c.ret h).strm.nextIn = [] ↔ TakesAll c h) ∧
    ((c.ret h).rc.IsNegative ∧ (c.ret h).strm.nextIn = [] ↔
      SwallowedFailure c h) := by
  have hNextIn :=
    nextIn_deflatePrepare c.flush c.env.now (offered c h)
  change _ = c.nextIn at hNextIn
  have hRet :
      c.ret h = zedcDeflate c.flush c.env (offered c h) := rfl
  rw [hRet]
  unfold zedcDeflate
  cases hPrepare :
      deflatePrepare c.flush c.env.now (offered c h) with
  | inl ret =>
      rcases ret with ⟨rc, s₁⟩
      have hNone : answer c h = none := by
        unfold answer
        rw [hPrepare]
      rcases takesAll_of_none hNone with ⟨hTakes, hFails⟩
      rw [hPrepare] at hNextIn
      simp only [preparedStrm] at hNextIn
      rw [hTakes, hFails]
      simp only
      rw [hNextIn, deflatePrepare_negative_iff hPrepare]
      exact ⟨Iff.rfl, and_comm⟩
  | inr s₁ =>
      rcases deflatePrepare_request hPrepare with
        ⟨hSame, hInput, _⟩
      change s₁.nextIn = c.nextIn at hSame
      change c.nextIn ≠ [] at hInput
      simp only
      have hOutcome := deflateSubmit_outcome c.flush c.env s₁
      generalize deflateSubmit c.flush c.env s₁ = ret at *
      have hExecute :
          ∀ {found : Option DeflExchange} {s₂ : DeflStream},
            deflateExecute c.flush c.env s₁ = (found, s₂) →
              s₂.nextIn = c.nextIn := by
        intro found s₂ hExec
        rcases (deflateExecute_spec hExec).1 with ⟨dict, rfl⟩
        exact hSame
      have hUnanswered :
          ∀ {s' : DeflStream}, answer c h = none →
            s'.nextIn = c.nextIn →
              ((s'.nextIn = [] ↔ TakesAll c h) ∧
                (Rc.IsNegative .streamError ∧
                  s'.nextIn = [] ↔ SwallowedFailure c h)) := by
        intro s' hNone hKept
        rcases takesAll_of_none hNone with ⟨hTakes, hFails⟩
        rw [hTakes, hFails, hKept]
        exact ⟨Iff.rfl,
          iff_of_false (fun h => hInput h.2)
            (fun h => hInput h.1)⟩
      have hAnswered :
          ∀ {ex : DeflExchange} {s₂ s₃ : DeflStream} {rc : Rc},
            deflateExecute c.flush c.env s₁ = (some ex, s₂) →
            ¬ ex.resp.outDictOffs ≥ 16 →
            deflateProcessResults ex.resp
                (deflateTakeAsv ex.resp s₂) = (rc, s₃) →
              (TakesAll c h ↔
                ex.resp.inpProcessed.toNat =
                  c.nextIn.length) ∧
              (SwallowedFailure c h ↔
                ex.resp.inpProcessed.toNat =
                    c.nextIn.length ∧
                  BadOutput ex.resp
                    (deflateTakeAsv ex.resp s₂)) ∧
              (s₃.nextIn = [] ↔
                ex.resp.inpProcessed.toNat =
                  c.nextIn.length) ∧
              (rc.IsNegative ↔
                ex.resp.inpProcessed.toNat >
                    c.nextIn.length ∨
                  BadOutput ex.resp
                    (deflateTakeAsv ex.resp s₂)) := by
        intro ex s₂ s₃ rc hExec hOffs hResults
        have hSome :
            answer c h =
              some (ex.resp, deflateTakeAsv ex.resp s₂) := by
          unfold answer
          rw [hPrepare]
          simp only [hExec, hOffs, if_false]
        have hLeft :
            (deflateTakeAsv ex.resp s₂).nextIn = c.nextIn :=
          (hExecute hExec :)
        have hKept :=
          nextIn_results_iff ex.resp hLeft hInput
        have hNeg := (deflateProcessResults_cases ex.resp
          (deflateTakeAsv ex.resp s₂)).1
        unfold DeflStream.availIn at hNeg
        rw [hResults] at hKept hNeg
        rw [hLeft] at hNeg
        rcases takesAll_of_some hSome hInput with
          ⟨hTakes, hFails⟩
        exact ⟨hTakes, hFails, hKept, hNeg⟩
      cases hOutcome with
      | failed hExec =>
          refine (hUnanswered ?_ (hExecute hExec) :)
          unfold answer
          rw [hPrepare]
          simp only [hExec]
      | badOffset hExec hOffs =>
          refine hUnanswered ?_ (hExecute hExec :)
          unfold answer
          rw [hPrepare]
          simp only [hExec, hOffs, if_true]
      | @refused ex s₂ s₃ rc hExec hOffs hResults hRc =>
          rcases hAnswered hExec hOffs hResults with
            ⟨hTakes, hFails, hKept, hNeg⟩
          have hBad := hNeg.mp hRc
          rw [hTakes, hFails, hKept]
          have hError : Rc.IsNegative .streamError := by
            decide
          refine ⟨Iff.rfl, fun h => ⟨h.2, ?_⟩,
            fun h => ⟨hError, h.1⟩⟩
          exact hBad.resolve_left (by omega)
      | @accepted ex s₂ s₃ hExec hOffs hResults =>
          rcases hAnswered hExec hOffs hResults with
            ⟨hTakes, hFails, hKept, hNeg⟩
          have hGood := mt hNeg.mpr (by decide)
          have hFlush :
              (deflateFlush c.flush s₃).nextIn = s₃.nextIn :=
            (congrArg DeflStream.nextIn
              (inputSide_deflateFlush c.flush s₃) :)
          have hWound :
              (deflateWindUp c.flush ex s₃).strm.nextIn =
                s₃.nextIn := hFlush
          rw [hTakes, hFails, hWound, hKept]
          refine ⟨Iff.rfl, iff_of_false ?_ ?_⟩
          · exact fun h => deflateWindUp_rc _ _ _ h.1
          · exact fun h => hGood (Or.inr h.2)

end Failures

------------------------------------------------------------
-- The Calls of a Call
------------------------------------------------------------

/- The calls that a round makes, with the streams they are
   made on. -/
def roundCalls
    (flush : Flush)
    (env : DeflateEnv)
    (st : HDeflate) : List (DeflateCall × DeflStream) :=
  (roundSends flush st).map fun m =>
    (sendCall flush env m, m.s.h)

/- The calls that the rounds of a loop make. -/
def loopCalls (flush : Flush) :
    Nat → (Nat → DeflateEnv) → HDeflate →
      List (DeflateCall × DeflStream)
  | 0, _, _ => []
  | fuel + 1, env, st =>
      roundCalls flush (env 0) st ++
        match hDeflateRound flush (env 0) st with
        | .inl _ => []
        | .inr st =>
            loopCalls flush fuel (fun i => env (i + 1)) st

/- The calls of `zedc_deflate` that a call makes. -/
def madeCalls
    (c : HDeflateCall) (st : HDeflate) :
    List (DeflateCall × DeflStream) :=
  if st.s.ibufTotal = 0 then
    [(⟨c.nextIn, c.availOut, c.flush, c.env 0⟩,
      { st.s.h with
        totalIn := st.strm.totalIn
        totalOut := st.strm.totalOut })]
  else
    loopCalls c.flush (c.nextIn.length + 2) c.env
      (callStart c st)

section Rounds

variable {flush : Flush} {env : DeflateEnv}
variable {st : HDeflate}

theorem hDeflateRoundEnd_rc
    (flush : Flush) (st : HDeflate) :
    ∀ rc st', hDeflateRoundEnd flush st = .inl (rc, st') →
      ¬ rc.IsNegative := by
  intro rc st' hEnd
  have hOutcome := hDeflateRoundEnd_outcome flush st
  rw [hEnd] at hOutcome
  cases hOutcome with
  | ok _ => decide
  | streamEnd => decide

theorem hDeflateSend_cases
    (flush : Flush) (env : DeflateEnv) (st : HDeflate) :
    (∃ st', hDeflateSend flush env st =
        .inl (.streamError, st') ∧
      ¬ TakesAll (sendCall flush env st) st.s.h) ∨
    ∃ st', hDeflateSend flush env st = .inr st' ∧
      TakesAll (sendCall flush env st) st.s.h := by
  have hIff := (ret_cases (sendCall flush env st) st.s.h).1
  unfold hDeflateSend
  simp only
  by_cases hAbsorbed :
      (hDeflateSent flush env st).s.h.nextIn = []
  · rw [if_pos hAbsorbed]
    exact Or.inr ⟨_, rfl, hIff.mp hAbsorbed⟩
  · rw [if_neg hAbsorbed]
    exact Or.inl ⟨_, rfl, fun h => hAbsorbed (hIff.mpr h)⟩

/-
  A round returns an error exactly if its call leaves input.
-/
theorem hDeflateRound_made
    (flush : Flush) (env : DeflateEnv) (st : HDeflate) :
    (∀ rc st', hDeflateRound flush env st = .inl (rc, st') →
      (rc.IsNegative ↔
        ∃ p ∈ roundCalls flush env st,
          ¬ TakesAll p.1 p.2)) ∧
    ∀ st', hDeflateRound flush env st = .inr st' →
      ∀ p ∈ roundCalls flush env st, TakesAll p.1 p.2 := by
  unfold roundCalls roundSends hDeflateRound
  simp only
  by_cases hFull : (hDeflateCollect st).strm.availOut = 0
  · simp only [hFull, if_true]
    refine ⟨?_, fun st' hRound => by cases hRound⟩
    intro rc st' hRound
    cases hRound
    exact iff_of_false (by decide) (by simp)
  · simp only [hFull, if_false]
    by_cases hSend :
        flush ≠ .noFlush ∨
          (hDeflateCollect st).s.ibufAvail = 0
    · simp only [hSend, if_true, List.map_cons,
        List.map_nil, List.mem_singleton, forall_eq,
        exists_eq_left]
      rcases hDeflateSend_cases flush env
          (hDeflateCollect st) with
        ⟨st₁, hEq, hLeaves⟩ | ⟨st₁, hEq, hTakes⟩
      · rw [hEq]
        refine ⟨?_, fun st' hRound => by cases hRound⟩
        intro rc st' hRound
        cases hRound
        exact iff_of_true (by decide) hLeaves
      · rw [hEq]
        refine ⟨fun rc st' hRound => ?_, fun _ _ => hTakes⟩
        exact iff_of_false
          (hDeflateRoundEnd_rc _ _ _ _ hRound)
          (fun h => h hTakes)
    · simp only [hSend, if_false, List.map_nil]
      refine ⟨fun rc st' hRound => ?_, by simp⟩
      exact iff_of_false
        (hDeflateRoundEnd_rc _ _ _ _ hRound) (by simp)

/- So does the loop, with the calls of all its rounds. -/
theorem hDeflateLoop_negative_iff
    {fuel : Nat}
    {env : Nat → DeflateEnv}
    {rc : Rc}
    {st' : HDeflate}
    (hLoop :
      hDeflateLoop flush fuel env st = some (rc, st')) :
    rc.IsNegative ↔
      ∃ p ∈ loopCalls flush fuel env st,
        ¬ TakesAll p.1 p.2 := by
  induction fuel generalizing env st with
  | zero => cases hLoop
  | succ fuel ih =>
      rcases hDeflateRound_made flush (env 0) st with
        ⟨hLast, hMore⟩
      unfold hDeflateLoop at hLoop
      unfold loopCalls
      cases hRound : hDeflateRound flush (env 0) st with
      | inl ret =>
          rw [hRound] at hLoop
          cases hLoop
          simp only [List.append_nil]
          exact hLast _ _ hRound
      | inr st₁ =>
          rw [hRound] at hLoop
          rw [ih hLoop]
          simp only [List.mem_append, or_and_right, exists_or]
          refine ⟨Or.inr, fun h => h.resolve_left ?_⟩
          rintro ⟨p, hMem, hLeaves⟩
          exact hLeaves (hMore _ hRound p hMem)

end Rounds

------------------------------------------------------------
-- Errors Reported
------------------------------------------------------------

section Errors

variable (c : HDeflateCall) (st : HDeflate)

/- A failed low-level call makes the whole call fail. -/
def ErrorsReported : Prop :=
  ∀ rc st',
    hDeflate c.flush c.env
        { st with
          strm := st.strm.offer c.nextIn c.availOut } =
      some (rc, st') →
    (∃ p ∈ madeCalls c st, (p.1.ret p.2).rc.IsNegative) →
      rc.IsNegative

/-
  Buffering is on, a low-level call fails behind its input,
  and none leaves input over.
-/
def ErrorSwallowed : Prop :=
  st.s.ibufTotal ≠ 0 ∧
    (∃ p ∈ madeCalls c st, SwallowedFailure p.1 p.2) ∧
    ∀ p ∈ madeCalls c st, TakesAll p.1 p.2

/- What a buffered call returns is decided by the input. -/
theorem hDeflate_negative_iff
    {rc : Rc}
    {st' : HDeflate}
    (hBuffered : st.s.ibufTotal ≠ 0)
    (hCall :
      hDeflate c.flush c.env
          { st with
            strm := st.strm.offer c.nextIn c.availOut } =
        some (rc, st')) :
    rc.IsNegative ↔
      ∃ p ∈ madeCalls c st, ¬ TakesAll p.1 p.2 := by
  rw [hDeflate_callStart c hBuffered] at hCall
  unfold madeCalls
  rw [if_neg hBuffered]
  exact hDeflateLoop_negative_iff hCall

/-
  Errors are reported exactly if none is swallowed: a call
  that fails without any input left, where no other call of
  the same `h_deflate` leaves input, is the only way.
-/
theorem errors_reported_iff :
    ErrorsReported c st ↔ ¬ ErrorSwallowed c st := by
  unfold ErrorsReported ErrorSwallowed
  by_cases hDirect : st.s.ibufTotal = 0
  · refine iff_of_true ?_ (fun h => h.1 hDirect)
    intro rc st' hCall hFailed
    unfold hDeflate at hCall
    unfold madeCalls at hFailed
    simp only [hDirect, if_true, Option.some.injEq] at hCall
    simp only [hDirect, if_true, List.mem_singleton,
      exists_eq_left] at hFailed
    have hRc := congrArg Prod.fst hCall
    simp only at hRc
    rw [← hRc]
    exact hFailed
  · constructor
    · rintro hReported ⟨_, ⟨p, hMem, hSwallowed⟩, hAll⟩
      rcases hDeflate_returns c.flush c.env
          { st with
            strm := st.strm.offer c.nextIn c.availOut } with
        ⟨⟨rc, st'⟩, hCall⟩
      have hNeg := hReported rc st' hCall
        ⟨p, hMem, ((ret_cases p.1 p.2).2.mpr hSwallowed).1⟩
      rcases (hDeflate_negative_iff c st hDirect hCall).mp
          hNeg with ⟨q, hMem', hLeaves⟩
      exact hLeaves (hAll q hMem')
    · intro hNone rc st' hCall ⟨p, hMem, hFailed⟩
      rw [hDeflate_negative_iff c st hDirect hCall]
      by_contra hTakes
      have hAll : ∀ q ∈ madeCalls c st, TakesAll q.1 q.2 := by
        intro q hMem'
        by_contra hLeaves
        exact hTakes ⟨q, hMem', hLeaves⟩
      refine hNone ⟨hDirect, ⟨p, hMem, ?_⟩, hAll⟩
      have hCases := ret_cases p.1 p.2
      exact hCases.2.mp ⟨hFailed, hCases.1.mpr (hAll p hMem)⟩

end Errors

------------------------------------------------------------
-- A Response without Output
------------------------------------------------------------

/- A card that absorbs all input and reports no output. -/
def muteEnv : DeflateEnv :=
  ⟨fun _ req => { echoResp req with outpReturned := 0 }, 0⟩

/- A flush of one byte on this card. -/
def muteCall : HDeflateCall where
  nextIn := [0x61]
  availOut := 64
  flush := .syncFlush
  env := fun _ => muteEnv

/- The call returns `Z_OK`, and the low-level call failed. -/
theorem missing_output_swallowed :
    (hDeflate muteCall.flush muteCall.env
        { smallHw with
          strm :=
            smallHw.strm.offer muteCall.nextIn
              muteCall.availOut }).map Prod.fst =
        some .ok ∧
      ¬ ∀ c st, ErrorsReported c st := by
  have hRc :
      (hDeflate muteCall.flush muteCall.env
        { smallHw with
          strm :=
            smallHw.strm.offer muteCall.nextIn
              muteCall.availOut }).map Prod.fst =
        some .ok := by
    rfl
  refine ⟨hRc, fun hAll => ?_⟩
  rcases Option.map_eq_some_iff.mp hRc with
    ⟨⟨rc, st'⟩, hCall, hOk⟩
  cases hOk
  have hFailed :
      ∃ p ∈ madeCalls muteCall smallHw,
        (p.1.ret p.2).rc.IsNegative :=
    ⟨_, List.mem_cons_self, by decide⟩
  exact absurd (hAll muteCall smallHw _ _ hCall hFailed)
    (by decide)

end Hardware
