import GenWqe.Hardware.StreamEnd

/-
  `h_inflate`: the accelerator writes into an internal buffer,
  from which output is given out, or into the caller's buffer
  where that is large enough or buffering is off.

  Key definitions include:
    * `InflateHw`, `HInflate`, `InflateSent`
    * `hInflateDrain`, `hInflateSent`, `hInflateRound`
    * `hInflate`

  Main results:
    * `hInflateStart_outcome`
    * `hInflateSent_some`
    * `hInflateResult_outcome`
-/

------------------------------------------------------------
-- The State
------------------------------------------------------------

namespace Hardware

open Zedc

/-
  The decompression side of `struct hw_state`. Of what is in
  its `h`, `windowBits` is kept beside the stream.
-/
structure InflateHw where
  h : InflStream
  windowBits : Int
  rc : Rc
  obuf : Obuf

/-
  A call of `zedc_inflate`: the stream and the output buffer
  it was made on, its arguments, and what it returned.
-/
structure InflateSent where
  before : InflStream
  obuf : Obuf
  flush : Flush
  env : InflateEnv
  ret : InflRet

/-
  The caller's stream, the hardware state behind it, and as a
  history variable, which no code reads, the calls of
  `zedc_inflate` made so far.
-/
structure HInflate where
  strm : ZStream
  s : InflateHw
  calls : List InflateSent

/- `__fixup_crc_or_adler` for decompression. -/
def fixupInflate (z : ZStream) (h : InflStream) : ZStream :=
  { z with
    adler :=
      if h.format = .gzip then h.crc32 else h.adler32 }

------------------------------------------------------------
-- The Parts of a Round
------------------------------------------------------------

/- `h_flush_obuf` on the whole state. -/
def hInflateFlushObuf (st : HInflate) : HInflate :=
  let (obuf, strm) := hFlushObuf st.s.obuf st.strm
  { st with s := { st.s with obuf := obuf }, strm := strm }

/- The bytes that a call of `zedc_inflate` has stored. -/
def newInflOutput (h h' : InflStream) : List UInt8 :=
  h'.nextOut.drop h.nextOut.length

/- `__inflate` on a stream that is set up for it. -/
def hInflateCall
    (flush : Flush)
    (env : InflateEnv)
    (h : InflStream)
    (st : HInflate) : Option HInflate :=
  match zedcInflate flush env h with
  | none => none
  | some ret =>
    some
      { strm := fixupInflate st.strm ret.strm
        s := { st.s with h := ret.strm, rc := ret.rc }
        calls := st.calls ++ [⟨h, st.s.obuf, flush, env, ret⟩] }

/- `use_internal_buffer` -/
def useInternalBuffer (st : HInflate) : Bool :=
  if st.s.h.dmaOutSglist then
    decide (st.s.obuf.total > st.strm.availOut)
  else true

/- The input and the output space for the accelerator. -/
def hInflateOffer
    (internal : Bool) (st : HInflate) : InflStream :=
  { st.s.h with
    nextIn := st.strm.nextIn
    totalIn := st.strm.totalIn
    availOut :=
      if internal then st.s.obuf.total
      else st.strm.availOut
    totalOut := st.strm.totalOut }

/- The caller's input position behind the call. -/
def hInflateTake (st : HInflate) : HInflate :=
  { st with
    strm :=
      { st.strm with
        nextIn := st.s.h.nextIn
        totalIn := st.s.h.totalIn
        dataType80 := st.s.h.dataType80 } }

/- The output is in the internal buffer, from its base on. -/
def hInflateFill
    (h : InflStream) (st : HInflate) : HInflate :=
  { st with
    s :=
      { st.s with
        obuf :=
          { total := st.s.obuf.total
            avail := st.s.h.availOut
            buf := newInflOutput h st.s.h
            next := 0 } } }

/- The output is in the caller's buffer. -/
def hInflateGive
    (h : InflStream) (st : HInflate) : HInflate :=
  { st with
    strm :=
      { st.strm with
        out :=
          storeAt st.strm.out st.strm.nextOut
            (newInflOutput h st.s.h)
        nextOut :=
          st.strm.nextOut + (newInflOutput h st.s.h).length
        availOut := st.s.h.availOut
        totalOut := st.s.h.totalOut } }

/- The call of the accelerator, and where its output goes. -/
def hInflateSent
    (internal : Bool)
    (flush : Flush)
    (env : InflateEnv)
    (st : HInflate) : Option HInflate :=
  let h := hInflateOffer internal st
  match hInflateCall flush env h st with
  | none => none
  | some st =>
    some
      (if internal then hInflateFill h (hInflateTake st)
      else hInflateGive h (hInflateTake st))

/-
  The stream has ended: bytes that wait at the end of the
  dictionary are given out. `next_out` stays where it is.
-/
def hInflateDrain (st : HInflate) : Rc × HInflate :=
  match zedcReadPendingOutput st.strm.availOut st.s.h with
  | none => (.errDictOverrun, st)
  | some (bs, h) =>
    (if zedcInflatePendingOutput h ≠ 0 then .ok
      else .streamEnd,
      { st with
        s := { st.s with h := h }
        strm :=
          { st.strm with
            out := storeAt st.strm.out st.strm.nextOut bs
            availOut := st.strm.availOut - bs.length
            totalOut := st.strm.totalOut + bs.length } })

/- The circumvention for a missing `Z_STREAM_END`. -/
def hInflateCheckEnd
    (disabled : Bool) (st : HInflate) : Option HInflate :=
  if st.s.rc ≠ .streamEnd ∧ st.strm.availOut = 0 then
    match checkStreamEnd disabled st.s.h st.strm with
    | none => none
    | some (rc, h, strm) =>
      some
        { st with
          strm := strm
          s :=
            { st.s with
              h := h
              rc :=
                if rc = .streamEnd then .streamEnd
                else st.s.rc } }
  else some st

/- The codes with which a call returns right away. -/
def Reported (rc : Rc) : Prop :=
  rc = .needDict ∨ rc = .streamError ∨ rc = .dataError ∨
    rc = .bufError

instance (rc : Rc) : Decidable (Reported rc) := by
  unfold Reported
  infer_instance

/- The end of a round, behind the check for the end. -/
def hInflateRoundEnd (st : HInflate) :
    Sum (Rc × HInflate) HInflate :=
  if st.s.rc = .streamEnd ∧ st.s.obuf.isEmpty ∧
      zedcInflatePendingOutput st.s.h = 0 then
    .inl (.streamEnd, st)
  else if st.strm.availOut = 0 then .inl (.ok, st)
  else if st.strm.dataType80 then .inl (st.s.rc, st)
  else if st.strm.nextIn = [] then .inl (.ok, st)
  else .inr st

/- A round behind the call of the accelerator. -/
def hInflateResult
    (disabled : Bool) (st : HInflate) :
    Option (Sum (Rc × HInflate) HInflate) :=
  let st := hInflateFlushObuf st
  if Reported st.s.rc then some (.inl (st.s.rc, st))
  else (hInflateCheckEnd disabled st).map hInflateRoundEnd

/- Without input these flush values end a call. -/
def waitsForInput (flush : Flush) (st : HInflate) : Prop :=
  st.strm.nextIn = [] ∧
    (flush = .noFlush ∨ flush = .partialFlush ∨
      flush = .fullFlush)

instance (flush : Flush) (st : HInflate) :
    Decidable (waitsForInput flush st) := by
  unfold waitsForInput
  infer_instance

/-
  A round up to the call: an answer without it on the left, or
  the state it is made on.
-/
def hInflateStart (flush : Flush) (st : HInflate) :
    Sum (Rc × HInflate) HInflate :=
  let st := hInflateFlushObuf st
  if st.s.rc = .streamEnd ∧ st.s.obuf.bytes = 0 then
    .inl (hInflateDrain st)
  else if
      (st.s.obuf.bytes ≠ 0 ∨
        zedcInflatePendingOutput st.s.h ≠ 0) ∧
      st.strm.availOut = 0 then
    .inl (.ok, st)
  else if waitsForInput flush st then .inl (.ok, st)
  else if ¬st.s.obuf.isEmpty then .inl (.dataError, st)
  else .inr st

/-
  One round of the loop in `h_inflate`. On the left the call
  returns, on the right another round follows.
-/
def hInflateRound
    (disabled internal : Bool)
    (flush : Flush)
    (env : InflateEnv)
    (st : HInflate) :
    Option (Sum (Rc × HInflate) HInflate) :=
  match hInflateStart flush st with
  | .inl ret => some (.inl ret)
  | .inr st =>
    match hInflateSent internal flush env st with
    | none => none
    | some st => hInflateResult disabled st

/-
  At most `fuel` rounds; `env` gives the surroundings of each
  round by its number.
-/
def hInflateLoop
    (disabled internal : Bool) (flush : Flush) :
    Nat → (Nat → InflateEnv) → HInflate →
      Option (Rc × HInflate)
  | 0, _, _ => none
  | fuel + 1, env, st =>
      match
        hInflateRound disabled internal flush (env 0) st with
      | none => none
      | some (.inl ret) => some ret
      | some (.inr st) =>
          hInflateLoop disabled internal flush fuel
            (fun i => env (i + 1)) st

/- The call where buffering is off. -/
def hInflateDirect
    (flush : Flush)
    (env : InflateEnv)
    (st : HInflate) : Option (Rc × HInflate) :=
  -- stream_zlib_to_zedc
  let h := hInflateOffer false st
  match hInflateCall flush env h st with
  | none => none
  | some st =>
    -- stream_zedc_to_zlib
    some
      (st.s.rc,
        hInflateGive h
          { st with
            strm :=
              { st.strm with
                nextIn := st.s.h.nextIn
                totalIn := st.s.h.totalIn } })

/-
  `h_inflate`, if it returns within `fuel` rounds. `disabled`
  is the flag that turns the circumvention off.
-/
def hInflate
    (disabled : Bool)
    (fuel : Nat)
    (flush : Flush)
    (env : Nat → InflateEnv)
    (st : HInflate) : Option (Rc × HInflate) :=
  if st.s.obuf.total = 0 then hInflateDirect flush (env 0) st
  else if
      st.s.obuf.bytes = 0 ∧
      zedcInflatePendingOutput st.s.h = 0 ∧
      st.s.rc = .streamEnd then
    some (.streamEnd, st)
  else
    hInflateLoop disabled (useInternalBuffer st) flush fuel
      env st

------------------------------------------------------------
-- The Internal Buffer
------------------------------------------------------------

/- The two descriptions of the internal buffer agree. -/
structure ObufOk (o : Obuf) : Prop where
  next : o.next ≤ o.buf.length
  avail : o.avail + o.bytes = o.total

theorem ObufOk.isEmpty_iff
    {o : Obuf}
    (hOk : ObufOk o) :
    o.isEmpty = true ↔ o.waiting = [] := by
  have hAvail := hOk.avail
  rw [← List.length_eq_zero_iff, Obuf.length_waiting]
  unfold Obuf.isEmpty
  rw [beq_iff_eq]
  omega

theorem obufOk_initial (total : Nat) :
    ObufOk (Obuf.initial total) :=
  ⟨Nat.le_refl 0, rfl⟩

/- What giving out the waiting bytes does to the state. -/
structure FlushedObuf
    (st st' : HInflate) (k : Nat) : Prop where
  strm :
    st' =
      { st with
        s := { st.s with obuf := st.s.obuf.giveOut k }
        strm := st.strm.take (st.s.obuf.waiting.take k) }
  waiting : k ≤ st.s.obuf.waiting.length
  availOut : k ≤ st.strm.availOut
  all :
    st.strm.availOut = k ∨ st.s.obuf.waiting.length = k

theorem hInflateFlushObuf_spec
    {st : HInflate}
    (hNext : st.strm.nextOut = st.strm.out.length) :
    ∃ k, FlushedObuf st (hInflateFlushObuf st) k := by
  rcases hFlushObuf_spec st.s.obuf st.strm hNext with
    ⟨k, hEq, hWaiting, hSpace, hAll⟩
  refine ⟨k, ?_, hWaiting, hSpace, hAll⟩
  unfold hInflateFlushObuf
  rw [hEq]

theorem ObufOk.giveOut
    {o : Obuf}
    {k : Nat}
    (hOk : ObufOk o)
    (hLe : k ≤ o.waiting.length) :
    ObufOk (o.giveOut k) := by
  have hNext := hOk.next
  have hAvail := hOk.avail
  rw [Obuf.length_waiting] at hLe
  unfold Obuf.bytes at hLe hAvail
  refine ⟨?_, ?_⟩
  · simp only [Obuf.giveOut]
    omega
  · simp only [Obuf.giveOut, Obuf.bytes]
    omega

section FlushedObuf

variable {st st' : HInflate} {k : Nat}

theorem FlushedObuf.obufOk
    (hFlushed : FlushedObuf st st' k)
    (hOk : ObufOk st.s.obuf) :
    ObufOk st'.s.obuf := by
  rw [hFlushed.strm]
  exact hOk.giveOut hFlushed.waiting

theorem FlushedObuf.nextOut
    (hFlushed : FlushedObuf st st' k)
    (hNext : st.strm.nextOut = st.strm.out.length) :
    st'.strm.nextOut = st'.strm.out.length := by
  rw [hFlushed.strm]
  simp only [ZStream.take, List.length_append, hNext]

/- With space left, nothing waits any more. -/
theorem FlushedObuf.drained
    (hFlushed : FlushedObuf st st' k)
    (hSpace : st'.strm.availOut ≠ 0) :
    st'.s.obuf.waiting = [] := by
  have hLe := hFlushed.waiting
  have hAll := hFlushed.all
  rw [hFlushed.strm] at hSpace ⊢
  simp only [ZStream.take, List.length_take] at hSpace
  simp only [Obuf.waiting_giveOut]
  exact List.drop_eq_nil_of_le (by omega)

end FlushedObuf

------------------------------------------------------------
-- What a Round Comes to
------------------------------------------------------------

/- The ways through the part before the call. -/
inductive StartOutcome (flush : Flush) (st : HInflate) :
    Sum (Rc × HInflate) HInflate → Prop
  | drain
      {st₁ : HInflate} {k : Nat} :
      FlushedObuf st st₁ k →
      st₁.s.rc = .streamEnd →
      st₁.s.obuf.waiting = [] →
      StartOutcome flush st (.inl (hInflateDrain st₁))
  | full
      {st₁ : HInflate} {k : Nat} :
      FlushedObuf st st₁ k →
      st₁.strm.availOut = 0 →
      StartOutcome flush st (.inl (.ok, st₁))
  | noInput
      {st₁ : HInflate} {k : Nat} :
      FlushedObuf st st₁ k →
      st₁.s.rc ≠ .streamEnd →
      st₁.s.obuf.waiting = [] →
      st₁.s.h.dict.obytesInDict = 0 ∨
        st₁.strm.availOut ≠ 0 →
      waitsForInput flush st₁ →
      StartOutcome flush st (.inl (.ok, st₁))
  | send
      {st₁ : HInflate} {k : Nat} :
      FlushedObuf st st₁ k →
      st₁.s.rc ≠ .streamEnd →
      st₁.s.obuf.waiting = [] →
      st₁.s.h.dict.obytesInDict = 0 ∨
        st₁.strm.availOut ≠ 0 →
      ¬ waitsForInput flush st₁ →
      StartOutcome flush st (.inr st₁)

/-
  The error for a buffer that should be empty is never
  reached.
-/
theorem hInflateStart_outcome
    (flush : Flush)
    {st : HInflate}
    (hOk : ObufOk st.s.obuf)
    (hNext : st.strm.nextOut = st.strm.out.length) :
    StartOutcome flush st (hInflateStart flush st) := by
  rcases hInflateFlushObuf_spec hNext with ⟨k, hFlushed⟩
  unfold hInflateStart
  generalize hInflateFlushObuf st = st₁ at hFlushed ⊢
  have hOk₁ := hFlushed.obufOk hOk
  have hBytes :
      st₁.s.obuf.bytes = 0 ↔ st₁.s.obuf.waiting = [] := by
    rw [← Obuf.length_waiting, List.length_eq_zero_iff]
  simp only
  split
  · rename_i hEnd
    exact .drain hFlushed hEnd.1 (hBytes.mp hEnd.2)
  · rename_i hMore
    split
    · rename_i hFull
      exact .full hFlushed hFull.2
    · rename_i hSpace
      have hNone : st₁.s.obuf.waiting = [] := by
        by_cases hRoom : st₁.strm.availOut = 0
        · by_contra hSome
          exact hSpace
            ⟨Or.inl (fun hZero => hSome (hBytes.mp hZero)),
              hRoom⟩
        · exact hFlushed.drained hRoom
      have hRc : st₁.s.rc ≠ .streamEnd := fun hEnd =>
        hMore ⟨hEnd, hBytes.mpr hNone⟩
      have hPending :
          st₁.s.h.dict.obytesInDict = 0 ∨
            st₁.strm.availOut ≠ 0 := by
        by_cases hZero : st₁.s.h.dict.obytesInDict = 0
        · exact Or.inl hZero
        · exact Or.inr fun hRoom =>
            hSpace ⟨Or.inr hZero, hRoom⟩
      split
      · rename_i hWaits
        exact .noInput hFlushed hRc hNone hPending hWaits
      · rename_i hGoes
        rw [if_neg (not_not.mpr (hOk₁.isEmpty_iff.mpr hNone))]
        exact .send hFlushed hRc hNone hPending hGoes

/- The call and the stream it was made on. -/
theorem hInflateSent_some
    {internal : Bool}
    {flush : Flush}
    {env : InflateEnv}
    {st st' : HInflate}
    (hSent : hInflateSent internal flush env st = some st') :
    ∃ ret,
      zedcInflate flush env (hInflateOffer internal st) =
        some ret ∧
      st'.calls =
        st.calls ++
          [⟨hInflateOffer internal st, st.s.obuf, flush, env,
            ret⟩] ∧
      st'.s.h = ret.strm ∧
      st'.s.rc = ret.rc ∧
      st' =
        (if internal then
          hInflateFill (hInflateOffer internal st)
        else hInflateGive (hInflateOffer internal st))
          (hInflateTake
            { strm := fixupInflate st.strm ret.strm
              s := { st.s with h := ret.strm, rc := ret.rc }
              calls := st'.calls }) := by
  unfold hInflateSent hInflateCall at hSent
  simp only at hSent
  cases hCall :
      zedcInflate flush env (hInflateOffer internal st) with
  | none =>
      rw [hCall] at hSent
      cases hSent
  | some ret =>
      rw [hCall] at hSent
      refine ⟨ret, rfl, ?_⟩
      cases internal <;> cases hSent <;>
        exact ⟨rfl, rfl, rfl, rfl⟩

/- The ways through the part behind the call. -/
inductive ResultOutcome (disabled : Bool) (st : HInflate) :
    Sum (Rc × HInflate) HInflate → Prop
  | error
      {st₁ : HInflate} {k : Nat} :
      FlushedObuf st st₁ k →
      Reported st₁.s.rc →
      ResultOutcome disabled st (.inl (st₁.s.rc, st₁))
  | checked
      {st₁ st₂ : HInflate} {k : Nat} :
      FlushedObuf st st₁ k →
      ¬ Reported st₁.s.rc →
      hInflateCheckEnd disabled st₁ = some st₂ →
      ResultOutcome disabled st (hInflateRoundEnd st₂)

theorem hInflateResult_outcome
    {disabled : Bool}
    {st : HInflate}
    {result : Sum (Rc × HInflate) HInflate}
    (hNext : st.strm.nextOut = st.strm.out.length)
    (hResult : hInflateResult disabled st = some result) :
    ResultOutcome disabled st result := by
  rcases hInflateFlushObuf_spec hNext with ⟨k, hFlushed⟩
  unfold hInflateResult at hResult
  generalize hInflateFlushObuf st = st₁ at hFlushed hResult
  simp only at hResult
  split at hResult
  · rename_i hError
    cases hResult
    exact .error hFlushed hError
  · rename_i hGood
    rcases Option.map_eq_some_iff.mp hResult with
      ⟨st₂, hCheck, rfl⟩
    exact .checked hFlushed hGood hCheck

end Hardware
