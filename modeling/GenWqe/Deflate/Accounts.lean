import GenWqe.Deflate.Flush
import GenWqe.Lib.Account

/-
  The counters of a deflate stream: every call of
  `zedc_deflate`, failed ones included, takes input from the
  front of what is offered and counts what it stores.

  Key definitions include:
    * `DeflStream.account`
    * `AbsorbsAll`

  Main results:
    * `zedcDeflate_moves`
    * `zedcDeflate_all_or_nothing`
-/

------------------------------------------------------------
-- The Account of a Stream
------------------------------------------------------------

namespace Zedc

/- The book-keeping fields of a stream. -/
def DeflStream.account (s : DeflStream) : Account UInt8 where
  input := s.nextIn
  totalIn := s.totalIn
  output := s.nextOut
  availOut := s.availOut
  totalOut := s.totalOut

section Moves

variable (s : DeflStream)

/- Bytes out of the FIFO are counted as output. -/
theorem deflateWriteOutFifo_moves :
    s.account.Moves (deflateWriteOutFifo s).account := by
  rcases (deflateWriteOutFifo_spec s).eq with
    ⟨out, f, _, hLe, hEq⟩
  rw [hEq]
  exact Account.Moves.of_give hLe

/- What is put into the FIFO is not counted yet. -/
@[simp] theorem account_deflateWriteEob :
    (deflateWriteEob s).account = s.account := by
  unfold deflateWriteEob
  split_ifs <;> rfl

@[simp] theorem account_deflateAddTrailer :
    (deflateAddTrailer s).account = s.account := by
  unfold deflateAddTrailer
  split_ifs <;> rfl

@[simp] theorem account_deflateSyncFlush :
    (deflateSyncFlush s).account = s.account := by
  simp only [DeflStream.account, deflateSyncFlush]

@[simp] theorem account_deflateAddHeader (now : UInt32) :
    (deflateAddHeader now s).2.account = s.account := by
  unfold deflateAddHeader
  split
  · rfl
  · simp only
    split
    · simp only [DeflStream.account]
    · split <;> simp only [DeflStream.account]
  · simp only [DeflStream.account]

/- The end of the stream, as far as there is space for it. -/
theorem deflateFinish_moves :
    s.account.Moves (deflateFinish s).account := by
  have hMoves := deflateWriteOutFifo_moves
    (deflateAddTrailer (deflateWriteEob s))
  rwa [account_deflateAddTrailer,
    account_deflateWriteEob] at hMoves

/- The same of the flush markers. -/
theorem deflateFlush_moves (flush : Flush) :
    s.account.Moves (deflateFlush flush s).account := by
  have hSync :=
    deflateWriteOutFifo_moves (deflateSyncFlush s)
  rw [account_deflateSyncFlush] at hSync
  cases flush with
  | finish =>
      simp only [deflateFlush]
      split
      · exact deflateFinish_moves s
      · exact Account.Moves.refl _
  | syncFlush => exact hSync
  | partialFlush => exact hSync
  | fullFlush => exact hSync
  | noFlush => exact Account.Moves.refl _
  | block => exact Account.Moves.refl _
  | other value => exact Account.Moves.refl _

/- The stream on either side of a preparation. -/
def preparedStrm :
    Sum (Rc × DeflStream) DeflStream → DeflStream
  | .inl (_, s) => s
  | .inr s => s

/- The ways out in front of a DDCB leave the stream alone. -/
theorem deflateExits_strm :
    preparedStrm (deflateExits s) = s := by
  unfold deflateExits
  split_ifs <;> rfl

/- All that is done in front of a DDCB. -/
theorem deflatePrepare_moves
    (flush : Flush) (now : UInt32) :
    s.account.Moves
      (preparedStrm (deflatePrepare flush now s)).account := by
  have hHeader :
      (if s.headerAdded then (false, s)
        else deflateAddHeader now s).2.account =
          s.account := by
    split
    · rfl
    · exact account_deflateAddHeader s now
  unfold deflatePrepare
  generalize
    (if s.headerAdded then (false, s)
      else deflateAddHeader now s) = added at *
  rcases added with ⟨_ | _, s₁⟩
  · simp only at hHeader ⊢
    rw [← hHeader]
    refine (deflateWriteOutFifo_moves s₁).trans ?_
    unfold deflatePrepareDrained
    split
    · exact Account.Moves.refl _
    · rw [deflateExits_strm]
      split
      · exact deflateFinish_moves _
      · exact Account.Moves.refl _
  · rw [← hHeader]
    exact Account.Moves.refl _

/- Of results that are refused the input may be taken. -/
theorem deflateProcessResults_moves (resp : DeflResp) :
    s.account.Moves
      (deflateProcessResults resp s).2.account := by
  unfold deflateProcessResults
  simp only
  split_ifs with hIn hOut hBits hRest
  · exact Account.Moves.refl _
  · exact Account.Moves.of_take (Nat.not_lt.mp hIn)
  · exact Account.Moves.of_take (Nat.not_lt.mp hIn)
  all_goals
    rw [not_or] at hOut
    refine ⟨resp.inpProcessed.toNat,
      resp.outBuff.window 0 resp.outpReturned.toNat,
      Nat.not_lt.mp hIn, ?_, ?_⟩
    · rw [ByteMem.length_window]
      exact Nat.not_lt.mp hOut.2
    · simp [DeflStream.account, Account.give, Account.take,
        deflateStoreObits]

/- A DDCB and the flush behind it. -/
theorem deflateSubmit_moves
    (flush : Flush) (env : DeflateEnv) :
    s.account.Moves
      (deflateSubmit flush env s).strm.account := by
  have hExecute :
      ∀ {found : Option DeflExchange} {s₁ : DeflStream},
        deflateExecute flush env s = (found, s₁) →
          s₁.account = s.account := by
    intro found s₁ hExec
    rcases (deflateExecute_spec hExec).1 with ⟨dict, rfl⟩
    rfl
  have hOutcome := deflateSubmit_outcome flush env s
  generalize deflateSubmit flush env s = ret at *
  cases hOutcome with
  | failed hExec =>
      rw [← hExecute hExec]
      exact Account.Moves.refl _
  | badOffset hExec _ =>
      rw [← hExecute hExec]
      exact Account.Moves.refl _
  | @refused ex s₁ s₂ rc hExec _ hResults _ =>
      have hMoves := deflateProcessResults_moves
        (deflateTakeAsv ex.resp s₁) ex.resp
      rw [hResults] at hMoves
      rw [← hExecute hExec]
      exact hMoves
  | @accepted ex s₁ s₂ hExec _ hResults =>
      have hMoves := deflateProcessResults_moves
        (deflateTakeAsv ex.resp s₁) ex.resp
      rw [hResults] at hMoves
      rw [← hExecute hExec]
      exact hMoves.trans (deflateFlush_moves s₂ flush)

/- A call of `zedc_deflate` keeps the books. -/
theorem zedcDeflate_moves
    (flush : Flush) (env : DeflateEnv) :
    s.account.Moves
      (zedcDeflate flush env s).strm.account := by
  have hPrepare := deflatePrepare_moves s flush env.now
  unfold zedcDeflate
  cases hPrepared : deflatePrepare flush env.now s with
  | inl ret =>
      rw [hPrepared] at hPrepare
      exact hPrepare
  | inr s₁ =>
      rw [hPrepared] at hPrepare
      exact hPrepare.trans (deflateSubmit_moves s₁ flush env)

end Moves

------------------------------------------------------------
-- All or Nothing
------------------------------------------------------------

section Absorbs

variable {s s₁ : DeflStream}
variable {flush : Flush} {env : DeflateEnv}

/-
  A request for at most `inTotal` bytes, with all of `outTotal`
  bytes to store into but what a FIFO holds, absorbs its input,
  if it is executed.
-/
def AbsorbsAll
    (inTotal outTotal : Nat) (env : DeflateEnv) : Prop :=
  ∀ n req,
    req.inBuff.length ≤ inTotal →
      outTotal ≤ req.outBuffLen + 255 →
        (env.accel n req).failed = false →
          (env.accel n req).inpProcessed.toNat =
            req.inBuff.length

/- Input is taken by results only. -/
theorem nextIn_deflatePrepare
    (flush : Flush) (now : UInt32) (s : DeflStream) :
    (preparedStrm (deflatePrepare flush now s)).nextIn =
      s.nextIn := by
  have hDrain :
      ∀ s : DeflStream,
        (deflateWriteOutFifo s).nextIn = s.nextIn := by
    intro s
    rcases (deflateWriteOutFifo_spec s).eq with
      ⟨out, f, _, _, hEq⟩
    rw [hEq]
  have hFinish :
      ∀ s : DeflStream,
        (deflateFinish s).nextIn = s.nextIn := by
    intro s
    exact (congrArg DeflStream.nextIn
      (inputSide_deflateFinish s) :)
  have hHeader :
      (if s.headerAdded then (false, s)
        else deflateAddHeader now s).2.nextIn =
          s.nextIn := by
    split
    · rfl
    · exact congrArg Account.input
        (account_deflateAddHeader s now)
  unfold deflatePrepare
  generalize
    (if s.headerAdded then (false, s)
      else deflateAddHeader now s) = added at *
  rcases added with ⟨_ | _, s₁⟩
  · simp only at hHeader ⊢
    unfold deflatePrepareDrained
    split
    · exact (hDrain s₁).trans hHeader
    · rw [deflateExits_strm]
      split
      · exact (hFinish _).trans ((hDrain s₁).trans hHeader)
      · exact (hDrain s₁).trans hHeader
  · exact hHeader

/- A DDCB is built only if there is input. -/
theorem deflateExits_inr
    (hExits : deflateExits s = .inr s₁) :
    s₁ = s ∧ s.nextIn ≠ [] := by
  unfold deflateExits at hExits
  split at hExits
  · cases hExits
  · split at hExits
    · cases hExits
    · split at hExits
      · cases hExits
      · rename_i hInput
        cases hExits
        exact ⟨rfl, hInput⟩

/- A request is made for input, and with space for output. -/
theorem deflatePrepare_request
    {now : UInt32}
    (hPrepare : deflatePrepare flush now s = .inr s₁) :
    s₁.nextIn = s.nextIn ∧ s.nextIn ≠ [] ∧
      s.availOut ≤ s₁.availOut + 255 := by
  have hNextIn := nextIn_deflatePrepare flush now s
  rw [hPrepare] at hNextIn
  refine ⟨hNextIn, ?_⟩
  unfold deflatePrepare at hPrepare
  have hHeader :
      (if s.headerAdded then (false, s)
        else deflateAddHeader now s).2.availOut =
          s.availOut := by
    split
    · rfl
    · exact (deflateAddHeader_keeps now s).2
  generalize
    (if s.headerAdded then (false, s)
      else deflateAddHeader now s) = added at *
  rcases added with ⟨_ | _, s₂⟩
  · simp only at hPrepare hHeader
    have hSpace := (deflateWriteOutFifo_spec s₂).availOut_ge
    have hHeld := s₂.outFifo.fifoUsed_lt
    rw [← ZedcFifo.length_contents] at hHeld
    simp only [zedcFifoSize] at hHeld
    unfold deflatePrepareDrained at hPrepare
    split at hPrepare
    · cases hPrepare
    · rcases deflateExits_inr hPrepare with ⟨hSame, hInput⟩
      split at hSame
      · -- the stream is finished without input only
        rename_i hFinish
        rw [if_pos hFinish] at hInput
        have hEmpty :=
          (congrArg DeflStream.nextIn
            (inputSide_deflateFinish
              (deflateWriteOutFifo s₂)) :)
        exact absurd (hEmpty.trans hFinish.2) hInput
      · rename_i hMore
        rw [if_neg hMore] at hInput
        subst hSame
        have hSame : (deflateWriteOutFifo s₂).nextIn =
            s.nextIn := hNextIn
        exact ⟨hSame ▸ hInput, by omega⟩
  · cases hPrepare

/- An exchange is a request with the answer it got. -/
theorem deflateExecute_answers
    {ex : DeflExchange}
    (hExec : deflateExecute flush env s = (some ex, s₁)) :
    ∃ n,
      ex.resp = env.accel n ex.req ∧
      ex.req.inBuff = s.nextIn ∧
      ex.req.outBuffLen = s.availOut := by
  unfold deflateExecute at hExec
  simp only at hExec
  split at hExec
  · cases hExec
  · split at hExec
    · cases hExec
      exact ⟨0, rfl, rfl, rfl⟩
    · split at hExec
      · cases hExec
      · cases hExec
        exact ⟨1, rfl, rfl, rfl⟩

/- Results that name all of the input take all of it. -/
theorem nextIn_of_results
    {ex : DeflExchange}
    {s₂ : DeflStream}
    {rc : Rc}
    (hNextIn : s₁.nextIn = s.nextIn)
    (hAll : ex.resp.inpProcessed.toNat = s.nextIn.length)
    (hResults :
      deflateProcessResults ex.resp
        (deflateTakeAsv ex.resp s₁) = (rc, s₂)) :
    s₂.nextIn = [] := by
  have hLen : ¬ ex.resp.inpProcessed.toNat >
      (deflateTakeAsv ex.resp s₁).availIn := by
    simp [deflateTakeAsv, DeflStream.availIn, hNextIn, hAll]
  have hDrop :
      (deflateTakeAsv ex.resp s₁).nextIn.drop
        ex.resp.inpProcessed.toNat = [] := by
    simp [deflateTakeAsv, hNextIn, hAll]
  have hStrm := congrArg Prod.snd hResults
  simp only at hStrm
  rw [← hStrm]
  unfold deflateProcessResults
  simp only [hLen, if_false]
  split_ifs <;> exact hDrop

/- A submission takes all of its input, or nothing. -/
theorem deflateSubmit_all_or_nothing
    {inTotal outTotal : Nat}
    (hAbsorbs : AbsorbsAll inTotal outTotal env)
    (hIn : s.nextIn.length ≤ inTotal)
    (hOut : outTotal ≤ s.availOut + 255) :
    (deflateSubmit flush env s).strm.nextIn = s.nextIn ∨
      (deflateSubmit flush env s).strm.nextIn = [] := by
  have hExecute :
      ∀ {found : Option DeflExchange} {s₁ : DeflStream},
        deflateExecute flush env s = (found, s₁) →
          s₁.nextIn = s.nextIn := by
    intro found s₁ hExec
    rcases (deflateExecute_spec hExec).1 with ⟨dict, rfl⟩
    rfl
  have hAll :
      ∀ {ex : DeflExchange} {s₁ : DeflStream},
        deflateExecute flush env s = (some ex, s₁) →
          ex.resp.inpProcessed.toNat = s.nextIn.length := by
    intro ex s₁ hExec
    have hAlive := ((deflateExecute_spec hExec).2 ex rfl).1
    rcases deflateExecute_answers hExec with
      ⟨n, hResp, hReqIn, hReqOut⟩
    rw [hResp] at hAlive ⊢
    rw [hAbsorbs n ex.req (by rw [hReqIn]; exact hIn)
      (by rw [hReqOut]; exact hOut) hAlive, hReqIn]
  have hOutcome := deflateSubmit_outcome flush env s
  generalize deflateSubmit flush env s = ret at *
  cases hOutcome with
  | failed hExec => exact Or.inl (hExecute hExec)
  | badOffset hExec _ => exact Or.inl (hExecute hExec :)
  | @refused ex s₁ s₂ rc hExec _ hResults _ =>
      right
      exact nextIn_of_results (hExecute hExec) (hAll hExec)
        hResults
  | @accepted ex s₁ s₂ hExec _ hResults =>
      right
      have hNone := nextIn_of_results (hExecute hExec)
        (hAll hExec) hResults
      have hMoves := deflateFlush_moves s₂ flush
      have hLe := hMoves.input_eq.1
      change (deflateFlush flush s₂).nextIn.length ≤
        s₂.nextIn.length at hLe
      rw [hNone] at hLe
      exact List.eq_nil_of_length_eq_zero (Nat.le_zero.mp hLe)

/- A call takes all of its input, or nothing. -/
theorem zedcDeflate_all_or_nothing
    {inTotal outTotal : Nat}
    (hAbsorbs : AbsorbsAll inTotal outTotal env)
    (hIn : s.nextIn.length ≤ inTotal)
    (hOut : outTotal ≤ s.availOut) :
    (zedcDeflate flush env s).strm.nextIn = s.nextIn ∨
      (zedcDeflate flush env s).strm.nextIn = [] := by
  have hNextIn := nextIn_deflatePrepare flush env.now s
  unfold zedcDeflate
  cases hPrepare : deflatePrepare flush env.now s with
  | inl ret =>
      rw [hPrepare] at hNextIn
      exact Or.inl hNextIn
  | inr s₁ =>
      rcases deflatePrepare_request hPrepare with
        ⟨hSame, _, hSpace⟩
      rw [← hSame]
      exact deflateSubmit_all_or_nothing hAbsorbs
        (by rw [hSame]; exact hIn) (hOut.trans hSpace)

end Absorbs

end Zedc
