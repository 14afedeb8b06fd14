import GenWqe.Hardware.InflateRuns
import GenWqe.Hardware.Deflate
import GenWqe.Deflate.Accounts

/-
  The counters of the caller's stream in every call of
  `h_deflate` and `h_inflate`.

  Key definitions include:
    * `Booked`
    * `DrainsBehind`

  Main results:
    * `hDeflate_booked`
    * `hInflateRound_booked`
    * `bookkeeping_iff`
-/

------------------------------------------------------------
-- Books
------------------------------------------------------------

namespace Hardware

open Zedc

/-
  Between two states of the caller's stream `n` bytes of input
  were taken and `bs` was stored at the old `next_out`, which
  all of the six fields count.
-/
structure BookedBy
    (z z' : ZStream) (n : Nat) (bs : List UInt8) : Prop where
  le : n ≤ z.nextIn.length
  space : bs.length ≤ z.availOut
  nextIn : z'.nextIn = z.nextIn.drop n
  totalIn : z'.totalIn = z.totalIn + n
  out : z'.out = storeAt z.out z.nextOut bs
  nextOut : z'.nextOut = z.nextOut + bs.length
  availOut : z'.availOut = z.availOut - bs.length
  totalOut : z'.totalOut = z.totalOut + bs.length

def Booked (z z' : ZStream) : Prop :=
  ∃ n bs, BookedBy z z' n bs

/- The caller's stream as an account. -/
def ZStream.account (z : ZStream) : Account UInt8 where
  input := z.nextIn
  totalIn := z.totalIn
  output := z.out
  availOut := z.availOut
  totalOut := z.totalOut

/- `next_out` is behind all that was stored. -/
def ZStream.AtEnd (z : ZStream) : Prop :=
  z.nextOut = z.out.length

theorem atEnd_offer
    (z : ZStream) (nextIn : List UInt8) (availOut : Nat) :
    (z.offer nextIn availOut).AtEnd :=
  rfl

/- Books are kept where the account moves with `next_out`. -/
theorem booked_iff
    {z z' : ZStream}
    (hEnd : z.AtEnd) :
    Booked z z' ↔ z.account.Moves z'.account ∧ z'.AtEnd := by
  constructor
  · rintro ⟨n, bs, hBy⟩
    have hOut : z'.out = z.out ++ bs := by
      rw [hBy.out, hEnd, storeAt_length]
    refine ⟨⟨n, bs, hBy.le, hBy.space, ?_⟩, ?_⟩
    · simp only [ZStream.account, Account.take, Account.give,
        hBy.nextIn, hBy.totalIn, hOut, hBy.availOut,
        hBy.totalOut]
    · unfold ZStream.AtEnd
      rw [hBy.nextOut, hOut, List.length_append, hEnd]
  · rintro ⟨⟨n, bs, hLe, hSpace, hAccount⟩, hEnd'⟩
    have hOut : z'.out = z.out ++ bs :=
      (congrArg Account.output hAccount :)
    refine ⟨n, bs, hLe, hSpace,
      (congrArg Account.input hAccount :),
      (congrArg Account.totalIn hAccount :), ?_, ?_,
      (congrArg Account.availOut hAccount :),
      (congrArg Account.totalOut hAccount :)⟩
    · rw [hOut, hEnd, storeAt_length]
    · rw [hEnd', hOut, List.length_append, hEnd]

/- The books are kept from one state to another. -/
structure Kept (z z' : ZStream) : Prop where
  moves : z.account.Moves z'.account
  atEnd : z.AtEnd → z'.AtEnd

theorem Kept.refl (z : ZStream) : Kept z z :=
  ⟨Account.Moves.refl _, id⟩

theorem Kept.trans
    {z z' z'' : ZStream}
    (hFirst : Kept z z')
    (hSecond : Kept z' z'') :
    Kept z z'' :=
  ⟨hFirst.moves.trans hSecond.moves,
    fun hEnd => hSecond.atEnd (hFirst.atEnd hEnd)⟩

theorem Kept.booked
    {z z' : ZStream}
    (hKept : Kept z z')
    (hEnd : z.AtEnd) :
    Booked z z' :=
  (booked_iff hEnd).mpr ⟨hKept.moves, hKept.atEnd hEnd⟩

/- Input taken. -/
theorem Kept.of_take
    {z z' : ZStream}
    {n : Nat}
    (hLe : n ≤ z.nextIn.length)
    (hAccount : z'.account = z.account.take n)
    (hNextOut : z'.nextOut = z.nextOut) :
    Kept z z' := by
  refine ⟨hAccount ▸ Account.Moves.of_take hLe, ?_⟩
  intro hEnd
  have hOut : z'.out = z.out :=
    (congrArg Account.output hAccount :)
  unfold ZStream.AtEnd
  rw [hNextOut, hOut]
  exact hEnd

/- Output stored at `next_out`. -/
theorem kept_take
    {z : ZStream}
    {bs : List UInt8}
    (hLe : bs.length ≤ z.availOut) :
    Kept z (z.take bs) := by
  refine ⟨Account.Moves.of_give hLe, ?_⟩
  intro hEnd
  simp only [ZStream.AtEnd, ZStream.take, List.length_append]
  rw [hEnd]

------------------------------------------------------------
-- Deflate
------------------------------------------------------------

theorem hFlushObuf_kept
    {o : Obuf}
    {z : ZStream}
    (hEnd : z.AtEnd) :
    Kept z (hFlushObuf o z).2 := by
  rcases hFlushObuf_spec o z hEnd with
    ⟨k, hEq, hLe, hSpace, _⟩
  rw [hEq]
  refine kept_take ?_
  rw [List.length_take]
  omega

theorem hReadIbuf_kept (st : HDeflate) :
    Kept st.strm (hReadIbuf st).strm := by
  unfold hReadIbuf
  split
  · exact Kept.refl _
  · exact Kept.of_take (Nat.min_le_left _ _) rfl rfl

/- What differs besides the six fields is not booked. -/
theorem Kept.of_same
    {z z' : ZStream}
    (hAccount : z'.account = z.account)
    (hNextOut : z'.nextOut = z.nextOut) :
    Kept z z' :=
  Kept.of_take (Nat.zero_le _)
    (by rw [hAccount, Account.take_zero]) hNextOut

theorem hDeflateFlushObuf_kept
    {st : HDeflate}
    (hEnd : st.strm.AtEnd) :
    Kept st.strm (hDeflateFlushObuf st).strm :=
  hFlushObuf_kept hEnd

theorem hDeflateCollect_kept
    {st : HDeflate}
    (hEnd : st.strm.AtEnd) :
    Kept st.strm (hDeflateCollect st).strm := by
  have hRead := hReadIbuf_kept st
  exact hRead.trans
    (hDeflateFlushObuf_kept (hRead.atEnd hEnd))

/- Sending moves bytes between internal buffers only. -/
theorem hDeflateSend_kept
    {flush : Flush}
    {env : DeflateEnv}
    {st st' : HDeflate}
    (hSend :
      hDeflateSend flush env st = .inr st' ∨
        hDeflateSend flush env st = .inl (.streamError, st')) :
    Kept st.strm st'.strm := by
  have hSent :
      Kept st.strm (hDeflateSent flush env st).strm :=
    Kept.of_same rfl rfl
  unfold hDeflateSend at hSend
  simp only at hSend
  split at hSend
  · rcases hSend with hOk | hErr
    · cases hOk
      exact hSent
    · cases hErr
  · rcases hSend with hOk | hErr
    · cases hOk
    · cases hErr
      exact hSent

theorem hDeflateRoundEnd_kept
    (flush : Flush)
    {st : HDeflate}
    (hEnd : st.strm.AtEnd) :
    Kept st.strm
      (resultState (hDeflateRoundEnd flush st)).strm := by
  have hFlushed := hDeflateFlushObuf_kept hEnd
  have hOutcome := hDeflateRoundEnd_outcome flush st
  generalize hDeflateRoundEnd flush st = result at hOutcome ⊢
  cases hOutcome with
  | ok _ => exact hFlushed
  | streamEnd => exact hFlushed
  | again _ _ => exact hFlushed

theorem hDeflateRound_kept
    (flush : Flush)
    (env : DeflateEnv)
    {st : HDeflate}
    (hEnd : st.strm.AtEnd) :
    Kept st.strm
      (resultState (hDeflateRound flush env st)).strm := by
  have hCollect := hDeflateCollect_kept hEnd
  have hEnd₁ := hCollect.atEnd hEnd
  have hOutcome := hDeflateRound_outcome flush env st
  generalize hDeflateRound flush env st = result at hOutcome ⊢
  cases hOutcome with
  | full _ => exact hCollect
  | kept _ _ _ =>
      exact hCollect.trans
        (hDeflateRoundEnd_kept flush hEnd₁)
  | refused _ hSend =>
      exact hCollect.trans (hDeflateSend_kept (Or.inr hSend))
  | sent _ hSend =>
      have hSent :=
        hCollect.trans (hDeflateSend_kept (Or.inl hSend))
      exact hSent.trans
        (hDeflateRoundEnd_kept flush (hSent.atEnd hEnd))

/- The caller's stream and an account count the same. -/
structure SameCounts
    (z : ZStream) (a : Account UInt8) : Prop where
  nextIn : z.nextIn = a.input
  totalIn : z.totalIn = a.totalIn
  availOut : z.availOut = a.availOut
  totalOut : z.totalOut = a.totalOut

/-
  Where the caller's buffers are used directly, the account of
  the stream becomes the caller's.
-/
theorem kept_of_moves
    {z z' : ZStream}
    {a b : Account UInt8}
    (hMoves : a.Moves b)
    (hBefore : SameCounts z a)
    (hBehind : SameCounts z' b)
    (hOut :
      z'.out =
        storeAt z.out z.nextOut
          (b.output.drop a.output.length))
    (hNextOut :
      z'.nextOut =
        z.nextOut + (b.output.drop a.output.length).length)
    (hEnd : z.AtEnd) :
    Kept z z' := by
  rcases hMoves with ⟨n, bs, hLe, hSpace, rfl⟩
  have hNew :
      ((a.take n).give bs).output.drop a.output.length =
        bs := by
    simp only [Account.give, Account.take, List.drop_left]
  rw [hNew] at hOut hNextOut
  rw [hEnd, storeAt_length] at hOut
  refine ⟨⟨n, bs, ?_, ?_, ?_⟩, fun _ => ?_⟩
  · change n ≤ z.nextIn.length
    rw [hBefore.nextIn]
    exact hLe
  · change bs.length ≤ z.availOut
    rw [hBefore.availOut]
    exact hSpace
  · simp only [ZStream.account, Account.take, Account.give]
    rw [hOut, hBehind.nextIn, hBehind.totalIn,
      hBehind.availOut, hBehind.totalOut, hBefore.nextIn,
      hBefore.totalIn, hBefore.availOut, hBefore.totalOut]
    rfl
  · unfold ZStream.AtEnd
    rw [hNextOut, hOut, List.length_append, hEnd]

theorem hDeflateDirect_kept
    (flush : Flush)
    (env : DeflateEnv)
    {st : HDeflate}
    (hEnd : st.strm.AtEnd) :
    Kept st.strm (hDeflateDirect flush env st).2.strm :=
  kept_of_moves
    (zedcDeflate_moves
      { st.s.h with
        totalIn := st.strm.totalIn
        totalOut := st.strm.totalOut
        nextIn := st.strm.nextIn
        availOut := st.strm.availOut } flush env)
    ⟨rfl, rfl, rfl, rfl⟩ ⟨rfl, rfl, rfl, rfl⟩ rfl rfl hEnd

theorem hDeflateLoop_kept
    {flush : Flush}
    {fuel : Nat}
    {env : Nat → DeflateEnv}
    {st : HDeflate}
    {ret : Rc × HDeflate}
    (hEnd : st.strm.AtEnd)
    (hLoop : hDeflateLoop flush fuel env st = some ret) :
    Kept st.strm ret.2.strm := by
  induction fuel generalizing env st with
  | zero => cases hLoop
  | succ fuel ih =>
      have hRound := hDeflateRound_kept flush (env 0) hEnd
      unfold hDeflateLoop at hLoop
      cases hResult : hDeflateRound flush (env 0) st with
      | inl ret' =>
          rw [hResult] at hLoop hRound
          cases hLoop
          exact hRound
      | inr st' =>
          rw [hResult] at hLoop hRound
          exact hRound.trans (ih (hRound.atEnd hEnd) hLoop)

/- Every call of `h_deflate` keeps the books. -/
theorem hDeflate_kept
    {flush : Flush}
    {env : Nat → DeflateEnv}
    {st : HDeflate}
    {ret : Rc × HDeflate}
    (hEnd : st.strm.AtEnd)
    (hCall : hDeflate flush env st = some ret) :
    Kept st.strm ret.2.strm := by
  unfold hDeflate at hCall
  split at hCall
  · cases hCall
    exact hDeflateDirect_kept flush (env 0) hEnd
  · have hPrep :
        Kept st.strm (prepCrcOrAdler st.strm st.s.h) := by
      unfold prepCrcOrAdler
      split
      · exact Kept.of_same rfl rfl
      · exact Kept.refl _
    exact hPrep.trans
      (hDeflateLoop_kept (hPrep.atEnd hEnd) hCall)

------------------------------------------------------------
-- Inflate
------------------------------------------------------------

theorem FlushedObuf.kept
    {st st' : HInflate}
    {k : Nat}
    (hFlushed : FlushedObuf st st' k) :
    Kept st.strm st'.strm := by
  rw [hFlushed.strm]
  refine kept_take ?_
  rw [List.length_take]
  exact (Nat.min_le_left _ _).trans hFlushed.availOut

/- What holds of the state a round is made on. -/
structure RoundReady (st : HInflate) : Prop where
  obuf : ObufOk st.s.obuf
  atEnd : st.strm.AtEnd

theorem FlushedObuf.ready
    {st st' : HInflate}
    {k : Nat}
    (hFlushed : FlushedObuf st st' k)
    (hReady : RoundReady st) :
    RoundReady st' :=
  ⟨hFlushed.obufOk hReady.obuf,
    hFlushed.nextOut hReady.atEnd⟩

/- The call of the accelerator keeps the books. -/
theorem hInflateSent_kept
    {internal : Bool}
    {flush : Flush}
    {env : InflateEnv}
    {st st' : HInflate}
    (hReady : RoundReady st)
    (hSent : hInflateSent internal flush env st = some st') :
    Kept st.strm st'.strm ∧ RoundReady st' ∧
      st'.s.obuf.total = st.s.obuf.total := by
  rcases hInflateSent_some hSent with
    ⟨ret, hCall, _, _, _, hState⟩
  have hMoves := zedcInflate_moves hCall
  cases internal with
  | true =>
      rw [if_pos rfl] at hState
      rcases hMoves.input_eq with ⟨_, hIn, hCount⟩
      have hKept : Kept st.strm st'.strm := by
        refine Kept.of_take
          (n := st.strm.nextIn.length -
            ret.strm.nextIn.length)
          (Nat.sub_le _ _) ?_ ?_
        · rw [hState]
          simp only [ZStream.account, Account.take,
            hInflateFill, hInflateTake, fixupInflate]
          congr 1
        · rw [hState]
          rfl
      refine ⟨hKept, ⟨?_, hKept.atEnd hReady.atEnd⟩, ?_⟩
      · have hAdd := hMoves.availOut_add
        rw [hState]
        refine ⟨Nat.zero_le _, ?_⟩
        simp only [hInflateFill, hInflateTake, Obuf.bytes,
          newInflOutput, List.length_drop, Nat.sub_zero]
        have hGrows := hMoves.output_prefix.length_le
        simp only [InflStream.account, hInflateOffer, if_true]
          at hAdd hGrows ⊢
        omega
      · rw [hState]
        rfl
  | false =>
      rw [if_neg (by decide)] at hState
      have hKept : Kept st.strm st'.strm := by
        refine kept_of_moves hMoves ⟨rfl, rfl, rfl, rfl⟩ ?_ ?_
          ?_ hReady.atEnd
        · rw [hState]
          exact ⟨rfl, rfl, rfl, rfl⟩
        · rw [hState]
          rfl
        · rw [hState]
          rfl
      refine ⟨hKept, ⟨?_, hKept.atEnd hReady.atEnd⟩, ?_⟩
      · rw [hState]
        exact hReady.obuf
      · rw [hState]
        rfl

/- So does the check for the end. -/
theorem hInflateCheckEnd_kept
    {disabled : Bool}
    {st st' : HInflate}
    (hReady : RoundReady st)
    (hCheck : hInflateCheckEnd disabled st = some st') :
    Kept st.strm st'.strm ∧ RoundReady st' ∧
      st'.s.obuf = st.s.obuf := by
  unfold hInflateCheckEnd at hCheck
  split at hCheck
  · rcases checkStreamEnd_checked disabled st.s.h st.strm with
      ⟨result, hResult, hChecked⟩
    rw [hResult] at hCheck
    cases hChecked with
    | home =>
        cases hCheck
        exact ⟨Kept.refl _, hReady, rfl⟩
    | found _ _ _ hLe =>
        cases hCheck
        have hKept :
            Kept st.strm
              (syncAvailIn _ st.s.h st.strm).2.2 :=
          Kept.of_take hLe rfl rfl
        exact ⟨hKept,
          ⟨hReady.obuf, hKept.atEnd hReady.atEnd⟩, rfl⟩
  · cases hCheck
    exact ⟨Kept.refl _, hReady, rfl⟩

/- With space left the check is not made. -/
theorem hInflateCheckEnd_space
    {disabled : Bool}
    {st st' : HInflate}
    (hCheck : hInflateCheckEnd disabled st = some st')
    (hSpace : st'.strm.availOut ≠ 0) :
    st' = st := by
  unfold hInflateCheckEnd at hCheck
  split at hCheck
  · rename_i hFull
    rcases checkStreamEnd_checked disabled st.s.h st.strm with
      ⟨checked, hEq, hChecked⟩
    rw [hEq] at hCheck
    cases hChecked with
    | home =>
        cases hCheck
        exact absurd hFull.2 hSpace
    | found _ _ _ _ =>
        cases hCheck
        exact absurd hFull.2 hSpace
  · cases hCheck
    rfl

/- What a round that is not the last leaves. -/
def roundState :
    Sum (Rc × HInflate) HInflate → HInflate
  | .inl (_, st) => st
  | .inr st => st

@[simp] theorem roundState_end (st : HInflate) :
    roundState (hInflateRoundEnd st) = st := by
  unfold hInflateRoundEnd
  split_ifs <;> rfl

/- A stream that has ended needs no further round. -/
theorem hInflateRoundEnd_again
    {st st' : HInflate}
    (hOk : ObufOk st.s.obuf)
    (hDrained :
      st.strm.availOut ≠ 0 → st.s.obuf.waiting = [])
    (hPending :
      st.s.rc = .streamEnd → st.strm.availOut ≠ 0 →
        st.s.h.dict.obytesInDict = 0)
    (hAgain : hInflateRoundEnd st = .inr st') :
    st'.s.rc ≠ .streamEnd ∧ st'.strm.availOut ≠ 0 ∧
      st'.strm.nextIn ≠ [] := by
  unfold hInflateRoundEnd at hAgain
  split at hAgain
  · cases hAgain
  · rename_i hMore
    split at hAgain
    · cases hAgain
    · rename_i hSpace
      split at hAgain
      · cases hAgain
      · split at hAgain
        · cases hAgain
        · rename_i hInput
          cases hAgain
          refine ⟨fun hEnd => hMore ⟨hEnd, ?_, ?_⟩, hSpace,
            hInput⟩
          · exact hOk.isEmpty_iff.mpr (hDrained hSpace)
          · exact hPending hEnd hSpace

/- The books behind a round that does not drain. -/
structure RoundBooks
    (st : HInflate)
    (result : Sum (Rc × HInflate) HInflate) : Prop where
  kept : Kept st.strm (roundState result).strm
  obuf : ObufOk (roundState result).s.obuf
  again : ∀ st', result = .inr st' → st'.s.rc ≠ .streamEnd

theorem hInflateResult_books
    {disabled : Bool}
    {st : HInflate}
    {result : Sum (Rc × HInflate) HInflate}
    (hReady : RoundReady st)
    (hPending :
      st.s.rc = .streamEnd →
        st.s.h.dict.obytesInDict = 0)
    (hResult : hInflateResult disabled st = some result) :
    RoundBooks st result := by
  cases hInflateResult_outcome hReady.atEnd hResult with
  | error hFlushed _ =>
      exact ⟨hFlushed.kept, (hFlushed.ready hReady).obuf,
        fun _ hAgain => (Sum.inl_ne_inr hAgain).elim⟩
  | @checked st₁ st₂ k hFlushed _ hCheck =>
      have hReady₁ := hFlushed.ready hReady
      rcases hInflateCheckEnd_kept hReady₁ hCheck with
        ⟨hKept, hReady₂, hObuf⟩
      have hSame :
          st₁.s.rc = st.s.rc ∧ st₁.s.h = st.s.h := by
        rw [hFlushed.strm]
        exact ⟨rfl, rfl⟩
      refine ⟨?_, ?_, fun st' hAgain => ?_⟩
      · rw [roundState_end]
        exact hFlushed.kept.trans hKept
      · rw [roundState_end]
        exact hReady₂.obuf
      · have hUnchecked :
            st₂.strm.availOut ≠ 0 → st₂ = st₁ :=
          hInflateCheckEnd_space hCheck
        refine (hInflateRoundEnd_again hReady₂.obuf ?_ ?_
          hAgain).1
        · intro hSpace
          have hSame₂ := hUnchecked hSpace
          rw [hSame₂] at hSpace ⊢
          exact hFlushed.drained hSpace
        · intro hEnd hSpace
          rw [hUnchecked hSpace, hSame.1] at hEnd
          rw [hUnchecked hSpace, hSame.2]
          exact hPending hEnd

theorem hInflateRound_books
    {disabled internal : Bool}
    {flush : Flush}
    {env : InflateEnv}
    {st : HInflate}
    {result : Sum (Rc × HInflate) HInflate}
    (hReady : RoundReady st)
    (hRc : st.s.rc ≠ .streamEnd)
    (hRound :
      hInflateRound disabled internal flush env st =
        some result) :
    RoundBooks st result := by
  have hStart := hInflateStart_outcome flush hReady.obuf
    hReady.atEnd
  unfold hInflateRound at hRound
  generalize hInflateStart flush st = start
    at hStart hRound
  cases hStart with
  | drain hFlushed hEnd _ =>
      rw [hFlushed.strm] at hEnd
      exact absurd hEnd hRc
  | full hFlushed _ =>
      cases hRound
      exact ⟨hFlushed.kept, (hFlushed.ready hReady).obuf,
        fun _ hAgain => (Sum.inl_ne_inr hAgain).elim⟩
  | noInput hFlushed _ _ _ _ =>
      cases hRound
      exact ⟨hFlushed.kept, (hFlushed.ready hReady).obuf,
        fun _ hAgain => (Sum.inl_ne_inr hAgain).elim⟩
  | @send st₁ k hFlushed _ _ _ _ =>
      simp only at hRound
      cases hSent : hInflateSent internal flush env st₁ with
      | none =>
          rw [hSent] at hRound
          cases hRound
      | some st₂ =>
          rw [hSent] at hRound
          rcases hInflateSent_kept (hFlushed.ready hReady)
            hSent with ⟨hKept, hReady₂, _⟩
          rcases hInflateSent_some hSent with
            ⟨ret, hCall, _, hH, hRet, _⟩
          have hBooks := hInflateResult_books hReady₂
            (by
              intro hEnd
              rw [hH]
              exact zedcInflate_streamEnd hCall
                (hRet.symm.trans hEnd))
            hRound
          exact ⟨hFlushed.kept.trans
            (hKept.trans hBooks.kept), hBooks.obuf,
            hBooks.again⟩

/- A call on a stream that has not ended keeps the books. -/
theorem hInflateLoop_kept
    {disabled internal : Bool}
    {flush : Flush}
    {fuel : Nat}
    {env : Nat → InflateEnv}
    {st : HInflate}
    {ret : Rc × HInflate}
    (hReady : RoundReady st)
    (hRc : st.s.rc ≠ .streamEnd)
    (hLoop :
      hInflateLoop disabled internal flush fuel env st =
        some ret) :
    Kept st.strm ret.2.strm ∧ ObufOk ret.2.s.obuf := by
  refine hInflateLoop_rule
    (fun st' => Kept st.strm st'.strm ∧ RoundReady st' ∧
      st'.s.rc ≠ .streamEnd)
    (fun ret => Kept st.strm ret.2.strm ∧
      ObufOk ret.2.s.obuf)
    ?_ ⟨Kept.refl _, hReady, hRc⟩ hLoop
  rintro n st₁ result ⟨hKept, hReady₁, hRc₁⟩ hRound
  have hBooks := hInflateRound_books hReady₁ hRc₁ hRound
  have hWhole := hKept.trans hBooks.kept
  cases result with
  | inl ret => exact ⟨hWhole, hBooks.obuf⟩
  | inr st₂ =>
      exact ⟨hWhole,
        ⟨hBooks.obuf, hWhole.atEnd
          (by
            have hEnd := hReady.atEnd
            exact hEnd)⟩,
        hBooks.again st₂ rfl⟩

theorem hInflateDirect_kept
    {flush : Flush}
    {env : InflateEnv}
    {st : HInflate}
    {ret : Rc × HInflate}
    (hEnd : st.strm.AtEnd)
    (hDirect : hInflateDirect flush env st = some ret) :
    Kept st.strm ret.2.strm ∧
      ret.2.s.obuf = st.s.obuf := by
  unfold hInflateDirect hInflateCall at hDirect
  simp only at hDirect
  cases hCall :
      zedcInflate flush env (hInflateOffer false st) with
  | none =>
      rw [hCall] at hDirect
      cases hDirect
  | some ret' =>
      rw [hCall] at hDirect
      cases hDirect
      exact ⟨kept_of_moves (zedcInflate_moves hCall)
        ⟨rfl, rfl, rfl, rfl⟩ ⟨rfl, rfl, rfl, rfl⟩ rfl rfl
        hEnd, rfl⟩

------------------------------------------------------------
-- A Stream That Has Ended
------------------------------------------------------------

/-
  The stream has ended, and bytes at the end of the dictionary
  are stored where space is left behind the bytes that wait in
  the internal buffer.
-/
structure DrainsBehind (st : HInflate) : Prop where
  buffered : st.s.obuf.total ≠ 0
  ended : st.s.rc = .streamEnd
  space : st.s.obuf.waiting.length < st.strm.availOut
  pending : 0 < st.s.h.dict.obytesInDict
  held :
    st.s.h.dict.obytesInDict ≤ st.s.h.dict.dictLen

/- The caller's stream with `bs` stored, not passed. -/
def ZStream.storeOnly
    (bs : List UInt8) (z : ZStream) : ZStream :=
  { z with
    out := storeAt z.out z.nextOut bs
    availOut := z.availOut - bs.length
    totalOut := z.totalOut + bs.length }

/- What is stored and not passed is not booked. -/
theorem storeOnly_booked
    {z z' : ZStream}
    (bs : List UInt8)
    (hKept : Kept z z')
    (hEnd : z.AtEnd) :
    Booked z (z'.storeOnly bs) ↔ bs = [] := by
  have hEnd' := hKept.atEnd hEnd
  have hOut :
      (z'.storeOnly bs).out = z'.out ++ bs := by
    simp only [ZStream.storeOnly]
    rw [hEnd', storeAt_length]
  constructor
  · intro hBooked
    have hBehind := ((booked_iff hEnd).mp hBooked).2
    unfold ZStream.AtEnd at hBehind hEnd'
    rw [hOut, List.length_append] at hBehind
    have hSame : (z'.storeOnly bs).nextOut = z'.nextOut := rfl
    exact List.eq_nil_of_length_eq_zero (by omega)
  · rintro rfl
    have hSame : Kept z' (z'.storeOnly []) := by
      refine Kept.of_same ?_ rfl
      simp only [ZStream.account, hOut, List.append_nil]
      rfl
    exact (hKept.trans hSame).booked hEnd

/- Draining keeps the books where it stores nothing. -/
theorem hInflateDrain_booked
    {st : HInflate}
    {z : ZStream}
    (hKept : Kept z st.strm)
    (hEnd : z.AtEnd) :
    Booked z (hInflateDrain st).2.strm ↔
      ¬ (st.strm.availOut ≠ 0 ∧
        0 < st.s.h.dict.obytesInDict ∧
        st.s.h.dict.obytesInDict ≤ st.s.h.dict.dictLen) := by
  unfold hInflateDrain zedcReadPendingOutput
  by_cases hNone : st.s.h.dict.obytesInDict = 0
  · rw [if_pos hNone]
    exact iff_of_true
      ((storeOnly_booked [] hKept hEnd).mpr rfl) (by omega)
  · rw [if_neg hNone]
    by_cases hOver :
        st.s.h.dict.dictLen < st.s.h.dict.obytesInDict
    · rw [if_pos hOver]
      exact iff_of_true (hKept.booked hEnd) (by omega)
    · rw [if_neg hOver]
      refine (storeOnly_booked _ hKept hEnd).trans ?_
      rw [← List.length_eq_zero_iff, List.length_take,
        DictArea.length_pending]
      omega

/- A round on a stream that has ended is the last. -/
theorem hInflateRound_ended
    {disabled internal : Bool}
    {flush : Flush}
    {env : InflateEnv}
    {st : HInflate}
    {result : Sum (Rc × HInflate) HInflate}
    (hReady : RoundReady st)
    (hRc : st.s.rc = .streamEnd)
    (hRound :
      hInflateRound disabled internal flush env st =
        some result) :
    ∃ ret,
      result = .inl ret ∧
      ret.2.s.obuf.total = st.s.obuf.total ∧
      ObufOk ret.2.s.obuf ∧
      (Booked st.strm ret.2.strm ↔
        ¬ (st.s.obuf.waiting.length < st.strm.availOut ∧
          0 < st.s.h.dict.obytesInDict ∧
          st.s.h.dict.obytesInDict ≤ st.s.h.dict.dictLen)) := by
  have hStart := hInflateStart_outcome flush hReady.obuf
    hReady.atEnd
  unfold hInflateRound at hRound
  generalize hInflateStart flush st = start
    at hStart hRound
  cases hStart with
  | @drain st₁ k hFlushed _ hNone =>
      cases hRound
      refine ⟨_, rfl, ?_⟩
      have hDrained :
          (hInflateDrain st₁).2.s.obuf = st₁.s.obuf := by
        unfold hInflateDrain
        split <;> rfl
      have hBooks := hInflateDrain_booked hFlushed.kept
        hReady.atEnd
      have hOk := hFlushed.obufOk hReady.obuf
      rw [hDrained]
      refine ⟨?_, hOk, hBooks.trans ?_⟩
      · rw [hFlushed.strm]
        rfl
      · have hLe := hFlushed.waiting
        have hAll := hFlushed.all
        have hSpace := hFlushed.availOut
        rw [hFlushed.strm] at hNone ⊢
        simp only [Obuf.waiting_giveOut,
          List.drop_eq_nil_iff] at hNone
        simp only [ZStream.take, List.length_take]
        omega
  | @full st₁ k hFlushed hFull =>
      cases hRound
      refine ⟨_, rfl, ?_, (hFlushed.ready hReady).obuf, ?_⟩
      · rw [hFlushed.strm]
        rfl
      · refine iff_of_true (hFlushed.kept.booked hReady.atEnd)
          ?_
        have hLe := hFlushed.waiting
        rw [hFlushed.strm] at hFull
        simp only [ZStream.take, List.length_take] at hFull
        omega
  | noInput hFlushed hMore _ _ _ =>
      rw [hFlushed.strm] at hMore
      exact absurd hRc hMore
  | send hFlushed hMore _ _ _ =>
      rw [hFlushed.strm] at hMore
      exact absurd hRc hMore

/- The books behind a call of `h_inflate`. -/
theorem hInflate_books
    {disabled : Bool}
    {fuel : Nat}
    {flush : Flush}
    {env : Nat → InflateEnv}
    {st : HInflate}
    {ret : Rc × HInflate}
    (hReady : RoundReady st)
    (hCall : hInflate disabled fuel flush env st = some ret) :
    ObufOk ret.2.s.obuf ∧
      (Booked st.strm ret.2.strm ↔ ¬ DrainsBehind st) := by
  unfold hInflate at hCall
  split at hCall
  · rename_i hDirect
    rcases hInflateDirect_kept hReady.atEnd hCall with
      ⟨hKept, hObuf⟩
    rw [hObuf]
    exact ⟨hReady.obuf,
      iff_of_true (hKept.booked hReady.atEnd)
        fun hDrains => hDrains.buffered hDirect⟩
  rename_i hBuffered
  split at hCall
  · rename_i hDone
    cases hCall
    refine ⟨hReady.obuf,
      iff_of_true ((Kept.refl _).booked hReady.atEnd)
        fun hDrains => ?_⟩
    exact absurd hDone.2.1
      (Nat.pos_iff_ne_zero.mp hDrains.pending)
  by_cases hRc : st.s.rc = .streamEnd
  · cases fuel with
    | zero => cases hCall
    | succ fuel =>
        unfold hInflateLoop at hCall
        cases hRound :
            hInflateRound disabled (useInternalBuffer st)
              flush (env 0) st with
        | none =>
            rw [hRound] at hCall
            cases hCall
        | some result =>
            rcases hInflateRound_ended hReady hRc hRound with
              ⟨ret', rfl, _, hOk, hBooked⟩
            rw [hRound] at hCall
            cases hCall
            refine ⟨hOk, hBooked.trans (not_congr ?_)⟩
            exact ⟨fun hAll =>
                ⟨hBuffered, hRc, hAll.1, hAll.2.1, hAll.2.2⟩,
              fun hDrains =>
                ⟨hDrains.space, hDrains.pending,
                  hDrains.held⟩⟩
  · rcases hInflateLoop_kept hReady hRc hCall with
      ⟨hKept, hOk⟩
    exact ⟨hOk,
      iff_of_true (hKept.booked hReady.atEnd)
        fun hDrains => hRc hDrains.ended⟩

------------------------------------------------------------
-- Every Call
------------------------------------------------------------

/- The internal buffer of any reachable state is in order. -/
theorem obufOk_of_reachable
    {disabled : Bool}
    {cfg : InflateConfig}
    {st : HInflate}
    (hReach : Reachable disabled cfg st) :
    ObufOk st.s.obuf := by
  refine hReach.rule (fun st => ObufOk st.s.obuf)
    ?_ ?_ ?_ ?_ ?_
  · intro windowBits z st hInit
    unfold hInflateInit2 at hInit
    split at hInit
    · cases hInit
    · cases hInit
      exact obufOk_initial _
  · intro windowBits st _
    exact obufOk_initial _
  · intro dictionary st hOk
    exact hOk
  · intro head st hOk
    exact hOk
  · intro call fuel st ret hOk hCall
    have hReady : RoundReady (call.offer st) :=
      ⟨hOk, atEnd_offer _ _ _⟩
    exact (hInflate_books hReady hCall).1

/- The state on which `h_deflate` is called. -/
def HDeflateCall.offer
    (call : HDeflateCall) (st : HDeflate) : HDeflate :=
  { st with
    strm := st.strm.offer call.nextIn call.availOut }

/-
  Every call of `h_deflate` keeps the books, and `h_inflate`
  does so unless it drains the dictionary of a stream that
  has ended.
-/
theorem bookkeeping_iff
    (disabled : Bool) (cfg : InflateConfig) :
    (∀ (call : HDeflateCall) (st : HDeflate)
        (ret : Rc × HDeflate),
      hDeflate call.flush call.env (call.offer st) =
          some ret →
        Booked (call.offer st).strm ret.2.strm) ∧
    (∀ (call : HInflateCall) (fuel : Nat) (st : HInflate)
        (ret : Rc × HInflate),
      Reachable disabled cfg st →
      hInflate disabled fuel call.flush call.env
          (call.offer st) = some ret →
        (Booked (call.offer st).strm ret.2.strm ↔
          ¬ DrainsBehind (call.offer st))) := by
  constructor
  · intro call st ret hCall
    have hEnd : (call.offer st).strm.AtEnd :=
      atEnd_offer _ _ _
    exact (hDeflate_kept hEnd hCall).booked hEnd
  · intro call fuel st ret hReach hCall
    have hReady : RoundReady (call.offer st) :=
      ⟨(obufOk_of_reachable hReach :), atEnd_offer _ _ _⟩
    exact (hInflate_books hReady hCall).2

/-
  A card that has one byte of output more than there was space
  for, and has passed the block in front of the final one.
-/
def parkedResp : InflResp :=
  { quietResp with
    inflStat := 0x01
    inpProcessed := 3
    procBits := 2
    outpReturned := 1
    outDictUsed := 2
    obytesInDict := 1
    outBuff := fun _ => 0x61
    outDict := fun i => [0x61, 0x62].getD i 0 }

/- The deflate stream for two bytes, with space for one. -/
def parkedCall : HInflateOp :=
  .inflate
    ⟨[0x4a, 0x4c, 0x02, 0x0c, 0x00], 1, .noFlush,
      fun _ => ⟨fun _ _ => parkedResp⟩⟩

def parkedState : HInflate :=
  (parkedCall.ret false 1 rawInflate).2

/- Space for the other byte, and no input. -/
def drainCall : HInflateCall :=
  ⟨[], 1, .noFlush, fun _ => ⟨fun _ _ => quietResp⟩⟩

/- What the call for the other byte comes to. -/
def drainedRet : Rc × HInflate :=
  (HInflateOp.inflate drainCall).ret false 1 parkedState

theorem drained_not_booked :
    Reachable false plainConfig parkedState ∧
    hInflate false 1 drainCall.flush drainCall.env
        (drainCall.offer parkedState) = some drainedRet ∧
    ¬ Booked (drainCall.offer parkedState).strm
        drainedRet.2.strm := by
  have hRuns :
      (HInflateOp.run false 1 parkedState
        (.inflate drainCall)).isSome := by
    decide
  refine ⟨reachable_rawInflate.next (by decide),
    HInflateOp.run_ret hRuns, ?_⟩
  rintro ⟨n, bs, hBy⟩
  have hTotal := hBy.totalOut
  have hNext := hBy.nextOut
  have hCounted :
      drainedRet.2.strm.totalOut =
        (drainCall.offer parkedState).strm.totalOut + 1 := by
    decide
  have hStays :
      drainedRet.2.strm.nextOut =
        (drainCall.offer parkedState).strm.nextOut := by
    decide
  omega

theorem bookkeeping_parked :
    Booked
      (rawInflate.strm.offer
        [0x4a, 0x4c, 0x02, 0x0c, 0x00] 1)
      parkedState.strm := by
  have hRuns :
      (HInflateOp.run false 1 rawInflate
        parkedCall).isSome := by
    decide
  refine ((bookkeeping_iff false plainConfig).2
    _ 1 rawInflate _ reachable_rawInflate
    (HInflateOp.run_ret hRuns)).mpr fun hDrains => ?_
  exact absurd hDrains.ended (by decide)

end Hardware
