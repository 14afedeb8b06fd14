import GenWqe.Formats.HeaderSplits
import GenWqe.Inflate.Decodes

/-
  What the caller of `h_inflate` gets, over any calls and with
  the internal buffer or without: the calls it makes of
  `zedc_inflate` read one stream from its front, so that what
  holds of every such run holds in a session.

  Key definitions include:
    * `InflateSent.event`, `sentEvents`
    * `Aside`, `CallRule`
    * `hInflateFed`, `Following`

  Main results:
    * `hInflate_follows`
    * `hInflateKept_of_run`
    * `hInflate_decodes`
-/

------------------------------------------------------------
-- Calls as Events
------------------------------------------------------------

namespace Hardware

open Zedc

/- A call of `zedc_inflate` as an event of its stream. -/
def InflateSent.event (sent : InflateSent) :
    InflateEvent where
  call :=
    ⟨sent.before.nextIn.length, sent.before.availOut,
      sent.flush, sent.env⟩
  rc := sent.ret.rc
  exchange := sent.ret.exchange

end Hardware

namespace Session

open Zedc Hardware Bits Rfc1951

/- All calls made on a stream, as events. -/
def sentEvents (st : HInflate) : List InflateEvent :=
  st.calls.map InflateSent.event

/-
  Between two calls `h_inflate` sets the buffers anew and
  `total_out` to what its caller has got.
-/
structure Aside (s s' : InflStream) : Prop where
  strm :
    s' =
      { s with
        nextIn := s'.nextIn
        availOut := s'.availOut
        totalOut := s'.totalOut }

/-
  A property of a stream and its events that the buffers and
  `total_out` make no difference to, and that calls keep.
-/
structure CallRule
    (x : List UInt8)
    (Ok : InflateEvent → Prop)
    (P : List InflateEvent → InflStream → Prop) :
    Prop where
  aside :
    ∀ trace s s', P trace s → Aside s s' → P trace s'
  step :
    ∀ trace s event s',
      Ok event → P trace s → splitStep x s event s' →
        P (trace ++ [event]) s'

/- Two such properties, the second kept with the first. -/
theorem CallRule.and
    {x : List UInt8}
    {Ok : InflateEvent → Prop}
    {P Q : List InflateEvent → InflStream → Prop}
    (hP : CallRule x Ok P)
    (hAside :
      ∀ trace s s', Q trace s → Aside s s' → Q trace s')
    (hStep :
      ∀ trace s event s',
        P trace s → Q trace s → splitStep x s event s' →
          Q (trace ++ [event]) s') :
    CallRule x Ok (fun trace s => P trace s ∧ Q trace s) := by
  constructor
  · rintro trace s s' ⟨hFirst, hSecond⟩ hSame
    exact ⟨hP.aside trace s s' hFirst hSame,
      hAside trace s s' hSecond hSame⟩
  · rintro trace s event s' hOk ⟨hFirst, hSecond⟩ hCall
    exact ⟨hP.step trace s event s' hOk hFirst hCall,
      hStep trace s event s' hFirst hSecond hCall⟩

------------------------------------------------------------
-- Sessions
------------------------------------------------------------

/- The next bytes of a string are those in its places. -/
theorem window_of_prefix
    {x bytes : List UInt8} {n : Nat}
    (hInside : n ≤ x.length)
    (hNext : bytes <+: x.drop n) :
    n + bytes.length ≤ x.length ∧
      (bytesAt x).window n bytes.length = bytes := by
  have hLen := hNext.length_le
  rw [List.length_drop] at hLen
  refine ⟨by omega, ?_⟩
  rw [window_bytesAt (by omega)]
  exact (List.prefix_iff_eq_take.mp hNext).symm

/- A call of `h_inflate` with what it returned. -/
structure HInflateEvent where
  call : HInflateCall
  rc : Rc

/- A call that offers the next bytes of `x`, and returns. -/
def hInflateFed
    (disabled : Bool)
    (x : List UInt8)
    (st : HInflate)
    (event : HInflateEvent)
    (st' : HInflate) : Prop :=
  event.call.nextIn <+: x.drop st.strm.totalIn ∧
    ∃ fuel,
      hInflate disabled fuel event.call.flush event.call.env
          (event.call.offer st) =
        some (event.rc, st')

/-
  The stream behind a session is where its caller is, its
  calls are those of a stream with the property `P`, and once
  it has ended nothing is parked any more. The search for the
  end of a raw stream is not entered.
-/
structure Settled
    (disabled : Bool)
    (x : List UInt8)
    (P : List InflateEvent → InflStream → Prop)
    (st : HInflate) : Prop where
  place : st.strm.totalIn = st.s.h.totalIn
  inside : st.strm.totalIn ≤ x.length
  stream : P (sentEvents st) st.s.h
  plain : disabled = true ∨ st.s.h.format ≠ .defl
  ended :
    st.s.rc = .streamEnd →
      Returned .streamEnd (sentEvents st) ∧
        st.s.h.dict.obytesInDict = 0

/- In a call the input left is the next of the stream. -/
structure Following
    (disabled : Bool)
    (x : List UInt8)
    (P : List InflateEvent → InflStream → Prop)
    (st : HInflate) : Prop extends
    Settled disabled x P st where
  fed : st.strm.nextIn <+: x.drop st.strm.totalIn

/- The end is returned with all output given out. -/
structure AllGivenOut (st : HInflate) : Prop where
  rc : st.s.rc = .streamEnd
  waiting : st.s.obuf.waiting = []

section Rounds

variable {disabled internal : Bool} {x : List UInt8}
variable {Ok : InflateEvent → Prop}
variable {P : List InflateEvent → InflStream → Prop}
variable {st st' : HInflate} {flush : Flush}
variable {env : InflateEnv} {rc : Rc}

/- The calls of a round come behind those before. -/
def OkCalls
    (Ok : InflateEvent → Prop) (st : HInflate) : Prop :=
  ∀ event ∈ sentEvents st, Ok event

theorem Following.flushed
    {k : Nat}
    (hInv : Following disabled x P st)
    (hFlushed : FlushedObuf st st' k) :
    Following disabled x P st' := by
  rw [hFlushed.strm]
  exact ⟨⟨hInv.place, hInv.inside, hInv.stream, hInv.plain,
    hInv.ended⟩, hInv.fed⟩

/- Nothing is parked at the end, so that nothing is drained. -/
theorem Following.drain
    (hInv : Following disabled x P st)
    (hEnd : st.s.rc = .streamEnd)
    (hNone : st.s.obuf.waiting = []) :
    (hInflateDrain st).1 = .streamEnd ∧
      Following disabled x P (hInflateDrain st).2 ∧
      AllGivenOut (hInflateDrain st).2 := by
  have hZero := (hInv.ended hEnd).2
  unfold hInflateDrain zedcReadPendingOutput
    zedcInflatePendingOutput
  rw [if_pos hZero]
  simp only
  refine ⟨if_neg (fun hNot => hNot hZero), ?_, hEnd, hNone⟩
  exact ⟨⟨hInv.place, hInv.inside, hInv.stream, hInv.plain,
    hInv.ended⟩, hInv.fed⟩

/- The call that a round makes is one on the stream. -/
theorem Following.sent
    (hRule : CallRule x Ok P)
    (hInv : Following disabled x P st)
    (hSent : hInflateSent internal flush env st = some st')
    (hOk : OkCalls Ok st') :
    Following disabled x P st' := by
  rcases hInflateSent_some hSent with
    ⟨ret, hCall, hCalls, hH, hRc, hState⟩
  have hEvents :
      sentEvents st' =
        sentEvents st ++
          [InflateSent.event
            ⟨hInflateOffer internal st, st.s.obuf, flush, env,
              ret⟩] := by
    unfold sentEvents
    rw [hCalls, List.map_append]
    rfl
  generalize hEvent :
    InflateSent.event
      ⟨hInflateOffer internal st, st.s.obuf, flush, env, ret⟩ =
        event at hEvents
  have hAside :
      Aside st.s.h (hInflateOffer internal st) := by
    refine ⟨?_⟩
    unfold hInflateOffer
    rw [hInv.place]
  rcases window_of_prefix hInv.inside hInv.fed with
    ⟨hLe, hWindow⟩
  have hSame :
      (hInflateOffer internal st).offer (bytesAt x)
          event.call =
        hInflateOffer internal st := by
    rw [← hEvent]
    unfold InflStream.offer InflateSent.event
    change
      { hInflateOffer internal st with
        nextIn :=
          (bytesAt x).window st.strm.totalIn
            st.strm.nextIn.length } = _
    rw [hWindow]
    rfl
  have hStep :
      splitStep x (hInflateOffer internal st) event
        ret.strm := by
    refine ⟨?_, ?_⟩
    · rw [← hEvent]
      exact hLe
    · unfold inflateStep
      rw [hSame, ← hEvent]
      exact hCall
  have hNext : P (sentEvents st') st'.s.h := by
    rw [hEvents, hH]
    refine hRule.step _ _ _ _ (hOk event ?_)
      (hRule.aside _ _ _ hInv.stream hAside) hStep
    rw [hEvents]
    simp
  have hPlace :
      st'.strm.nextIn = ret.strm.nextIn ∧
        st'.strm.totalIn = ret.strm.totalIn := by
    rw [hState]
    cases internal <;> exact ⟨rfl, rfl⟩
  rcases (zedcInflate_moves hCall).input_eq with
    ⟨_, hIn, hTotal⟩
  change
    ret.strm.nextIn =
      st.strm.nextIn.drop
        (st.strm.nextIn.length - ret.strm.nextIn.length) at hIn
  change
    ret.strm.totalIn =
      st.strm.totalIn +
        (st.strm.nextIn.length - ret.strm.nextIn.length)
    at hTotal
  refine ⟨⟨?_, ?_, hNext, ?_, fun hEnd => ?_⟩, ?_⟩
  · rw [hPlace.2, hH]
  · rw [hPlace.2, hTotal]
    omega
  · rw [hH, (zedcInflate_format hCall).1]
    exact hInv.plain
  · rw [hRc] at hEnd
    refine ⟨⟨event, ?_, ?_⟩, ?_⟩
    · rw [hEvents]
      simp
    · rw [← hEvent]
      exact hEnd
    · rw [hH]
      exact zedcInflate_streamEnd hCall hEnd
  · rw [hPlace.1, hPlace.2, hTotal, ← List.drop_drop]
    generalize hTaken :
      st.strm.nextIn.length - ret.strm.nextIn.length = k
        at hIn
    rw [hIn]
    exact hInv.fed.drop k

/- The search for the end finds its way home. -/
theorem Following.checkEnd
    (hInv : Following disabled x P st)
    (hCheck : hInflateCheckEnd disabled st = some st') :
    st' = st := by
  unfold hInflateCheckEnd at hCheck
  split at hCheck
  · have hHome :
        checkStreamEnd disabled st.s.h st.strm =
          some (.ok, st.s.h, st.strm) := by
      unfold checkStreamEnd
      rcases hInv.plain with hDisabled | hFormat
      · rw [if_pos hDisabled]
      · rw [if_pos hFormat, ite_self]
    rw [hHome] at hCheck
    cases hCheck
    rfl
  · cases hCheck
    rfl

/- The end of a round behind the call. -/
theorem hInflateResult_follows
    {result : Sum (Rc × HInflate) HInflate}
    (hReady : RoundReady st)
    (hInv : Following disabled x P st)
    (hResult : hInflateResult disabled st = some result) :
    Following disabled x P (roundState result) ∧
      ∀ st', result = .inl (.streamEnd, st') →
        AllGivenOut st' := by
  cases hInflateResult_outcome hReady.atEnd hResult with
  | @error st₁ _ hFlushed hReported =>
      refine ⟨hInv.flushed hFlushed, fun st' hEnd => ?_⟩
      have hRc : st₁.s.rc = .streamEnd :=
        congrArg Prod.fst (Sum.inl.inj hEnd)
      rw [hRc] at hReported
      exact absurd hReported (by decide)
  | @checked st₁ st₂ k hFlushed _ hCheck =>
      have hInv₁ := hInv.flushed hFlushed
      have hSame := hInv₁.checkEnd hCheck
      subst hSame
      rw [roundState_end]
      refine ⟨hInv₁, fun st' hEnd => ?_⟩
      have hObuf := (hFlushed.ready hReady).obuf
      unfold hInflateRoundEnd at hEnd
      split at hEnd
      · rename_i hAll
        cases hEnd
        exact ⟨hAll.1, hObuf.isEmpty_iff.mp hAll.2.1⟩
      · rename_i hMore
        split at hEnd
        · cases hEnd
        · rename_i hSpace
          split at hEnd
          · -- with space left nothing would wait
            have hRc : st₂.s.rc = .streamEnd :=
              congrArg Prod.fst (Sum.inl.inj hEnd)
            have hNone := hFlushed.drained hSpace
            exact absurd
              ⟨hRc, hObuf.isEmpty_iff.mpr hNone,
                (hInv₁.ended hRc).2⟩ hMore
          · split at hEnd <;> cases hEnd

/- A round, if all calls up to its end are admissible. -/
theorem hInflateRound_follows
    {result : Sum (Rc × HInflate) HInflate}
    (hRule : CallRule x Ok P)
    (hReady : RoundReady st)
    (hInv : Following disabled x P st)
    (hRound :
      hInflateRound disabled internal flush env st =
        some result)
    (hOk : OkCalls Ok (roundState result)) :
    Following disabled x P (roundState result) ∧
      ∀ st', result = .inl (.streamEnd, st') →
        AllGivenOut st' := by
  have hStart := hInflateStart_outcome flush hReady.obuf
    hReady.atEnd
  unfold hInflateRound at hRound
  generalize hInflateStart flush st = start at hStart hRound
  cases hStart with
  | @drain st₁ k hFlushed hEnd hNone =>
      cases hRound
      have hDrain := (hInv.flushed hFlushed).drain hEnd hNone
      refine ⟨hDrain.2.1, fun st' hIs => ?_⟩
      have hState : (hInflateDrain st₁).2 = st' :=
        congrArg Prod.snd (Sum.inl.inj hIs)
      rw [← hState]
      exact hDrain.2.2
  | full hFlushed _ =>
      cases hRound
      exact ⟨hInv.flushed hFlushed, fun st' hIs => by cases hIs⟩
  | noInput hFlushed _ _ _ _ =>
      cases hRound
      exact ⟨hInv.flushed hFlushed, fun st' hIs => by cases hIs⟩
  | @send st₁ k hFlushed _ _ _ _ =>
      simp only at hRound
      cases hSent : hInflateSent internal flush env st₁ with
      | none =>
          rw [hSent] at hRound
          cases hRound
      | some st₂ =>
          rw [hSent] at hRound
          have hReady₂ : RoundReady st₂ :=
            (hInflateSent_kept (hFlushed.ready hReady)
              hSent).2.1
          rcases hInflateResult_onward hReady₂.atEnd hRound
            with hOnward
          have hCalls := hOnward.calls
          rw [List.append_nil] at hCalls
          have hOk₂ : OkCalls Ok st₂ := by
            unfold OkCalls sentEvents at hOk ⊢
            rw [← hCalls]
            exact hOk
          have hInv₂ :=
            (hInv.flushed hFlushed).sent hRule hSent hOk₂
          exact hInflateResult_follows hReady₂ hInv₂ hRound

/- Calls behind do not make those before inadmissible. -/
theorem Onward.okCalls
    {sents : List InflateSent}
    (hOnward : Onward st st' sents)
    (hOk : OkCalls Ok st') : OkCalls Ok st := by
  intro event hMem
  apply hOk event
  unfold sentEvents at hMem ⊢
  rw [hOnward.calls, List.map_append]
  exact List.mem_append_left _ hMem

/- A call with any number of rounds. -/
theorem hInflateLoop_follows
    {fuel : Nat}
    {env : Nat → InflateEnv}
    {ret : Rc × HInflate}
    (hRule : CallRule x Ok P)
    (hReady : RoundReady st)
    (hInv : Following disabled x P st)
    (hLoop :
      hInflateLoop disabled internal flush fuel env st =
        some ret)
    (hOk : OkCalls Ok ret.2) :
    Following disabled x P ret.2 ∧
      (ret.1 = .streamEnd → AllGivenOut ret.2) := by
  refine hInflateLoop_rule
    (fun st₁ =>
      RoundReady st₁ ∧
        (OkCalls Ok st₁ → Following disabled x P st₁))
    (fun ret =>
      OkCalls Ok ret.2 →
        Following disabled x P ret.2 ∧
          (ret.1 = .streamEnd → AllGivenOut ret.2))
    ?_ ⟨hReady, fun _ => hInv⟩ hLoop hOk
  rintro n st₁ result ⟨hReady₁, hBefore⟩ hRound
  rcases hInflateRound_onward hReady₁ hRound with
    ⟨sents, hOnward⟩
  cases result with
  | inl ret =>
      intro hOk'
      rcases hInflateRound_follows hRule hReady₁
          (hBefore (hOnward.okCalls hOk')) hRound hOk' with
        ⟨hNext, hEnd⟩
      refine ⟨hNext, fun hRc => hEnd _ ?_⟩
      rw [← hRc]
  | inr st₂ =>
      refine ⟨(hInflateRound_on hReady₁ hRound).ready,
        fun hOk' => ?_⟩
      exact (hInflateRound_follows hRule hReady₁
        (hBefore (hOnward.okCalls hOk')) hRound hOk').1

/-
  Without buffering a call ends as that of a round does, but
  for the flags of `data_type`.
-/
theorem hInflateDirect_ends
    {ret : Rc × HInflate}
    (hCall : hInflateDirect flush env st = some ret) :
    ∃ st₁ dataType80,
      hInflateSent false flush env st = some st₁ ∧
        ret.1 = st₁.s.rc ∧
        ret.2 =
          { st₁ with
            strm := { st₁.strm with dataType80 } } := by
  unfold hInflateDirect at hCall
  unfold hInflateSent
  simp only at hCall ⊢
  cases hMade : hInflateCall flush env
      (hInflateOffer false st) st with
  | none =>
      rw [hMade] at hCall
      cases hCall
  | some st₁ =>
      rw [hMade] at hCall
      cases hCall
      exact ⟨_, st₁.strm.dataType80, rfl, rfl, rfl⟩

theorem hInflateDirect_follows
    {ret : Rc × HInflate}
    (hRule : CallRule x Ok P)
    (hReady : RoundReady st)
    (hDirect : st.s.obuf.total = 0)
    (hInv : Following disabled x P st)
    (hCall : hInflateDirect flush env st = some ret)
    (hOk : OkCalls Ok ret.2) :
    Following disabled x P ret.2 ∧
      (ret.1 = .streamEnd → AllGivenOut ret.2) := by
  rcases hInflateDirect_ends hCall with
    ⟨st₁, dataType80, hSent, hRc, hState⟩
  rw [hState] at hOk ⊢
  have hInv₁ : Following disabled x P st₁ :=
    hInv.sent hRule hSent hOk
  have hObuf : st₁.s.obuf = st.s.obuf := by
    rcases hInflateSent_some hSent with
      ⟨_, _, _, _, _, hFilled⟩
    rw [hFilled]
    rfl
  refine ⟨⟨⟨hInv₁.place, hInv₁.inside, hInv₁.stream,
    hInv₁.plain, hInv₁.ended⟩, hInv₁.fed⟩,
    fun hEnd => ⟨?_, ?_⟩⟩
  · exact hRc.symm.trans hEnd
  · change st₁.s.obuf.waiting = []
    rw [hObuf]
    exact ObufOk.waiting_of_none hReady.obuf hDirect

/- A call of `h_inflate`. -/
theorem hInflate_follows
    {fuel : Nat}
    {env : Nat → InflateEnv}
    {ret : Rc × HInflate}
    (hRule : CallRule x Ok P)
    (hReady : RoundReady st)
    (hInv : Following disabled x P st)
    (hCall : hInflate disabled fuel flush env st = some ret)
    (hOk : OkCalls Ok ret.2) :
    Following disabled x P ret.2 ∧
      (ret.1 = .streamEnd → AllGivenOut ret.2) := by
  unfold hInflate at hCall
  split at hCall
  · rename_i hDirect
    exact hInflateDirect_follows hRule hReady hDirect hInv
      hCall hOk
  · split at hCall
    · rename_i hGiven
      cases hCall
      refine ⟨hInv, fun _ => ⟨hGiven.2.2, ?_⟩⟩
      apply List.eq_nil_of_length_eq_zero
      rw [Obuf.length_waiting]
      exact hGiven.1
    · exact hInflateLoop_follows hRule hReady hInv hCall hOk

end Rounds

------------------------------------------------------------
-- Runs
------------------------------------------------------------

/- The last call has returned the end of the stream. -/
def EndReturned (trace : List HInflateEvent) : Prop :=
  ∃ event ∈ trace.getLast?, event.rc = .streamEnd

theorem endReturned_append
    {trace : List HInflateEvent}
    {event : HInflateEvent} :
    EndReturned (trace ++ [event]) ↔
      event.rc = .streamEnd := by
  simp [EndReturned]

/- What holds between the calls. -/
structure HInflateKept
    (disabled : Bool)
    (x : List UInt8)
    (Ok : InflateEvent → Prop)
    (P : List InflateEvent → InflStream → Prop)
    (st₀ : HInflate)
    (trace : List HInflateEvent)
    (st : HInflate) : Prop where
  obuf : ObufOk st.s.obuf
  onward : ∃ sents, Onward st₀ st sents
  follows :
    OkCalls Ok st →
      Settled disabled x P st ∧
        (EndReturned trace → AllGivenOut st)

section Runs

variable {disabled : Bool} {x : List UInt8}
variable {Ok : InflateEvent → Prop}
variable {P : List InflateEvent → InflStream → Prop}
variable {st₀ st st' : HInflate}
variable {trace : List HInflateEvent}
variable {cfg : InflateConfig} {windowBits : Int}
variable {z : ZStream}

/- Every call keeps it. -/
theorem HInflateKept.step
    {event : HInflateEvent}
    (hRule : CallRule x Ok P)
    (hKept : HInflateKept disabled x Ok P st₀ trace st)
    (hStep : hInflateFed disabled x st event st') :
    HInflateKept disabled x Ok P st₀ (trace ++ [event]) st' := by
  rcases hStep with ⟨hIn, fuel, hCall⟩
  have hReady : RoundReady (event.call.offer st) :=
    ⟨hKept.obuf, atEnd_offer _ _ _⟩
  have hOffered : Onward st (event.call.offer st) [] :=
    Onward.of_output rfl fun hInside => ⟨hInside, rfl⟩
  rcases hInflate_onward hReady hCall with ⟨sents, hOnward⟩
  rcases hKept.onward with ⟨before, hBefore⟩
  refine ⟨(hInflate_books hReady hCall).1,
    ⟨_, (hBefore.trans hOffered).trans hOnward⟩,
    fun hOk => ?_⟩
  have hOk₁ : OkCalls Ok (event.call.offer st) :=
    hOnward.okCalls hOk
  have hInv := (hKept.follows hOk₁).1
  have hInv₁ :
      Following disabled x P (event.call.offer st) :=
    ⟨⟨hInv.place, hInv.inside, hInv.stream, hInv.plain,
      hInv.ended⟩, hIn⟩
  rcases hInflate_follows hRule hReady hInv₁ hCall hOk with
    ⟨hNext, hEnd⟩
  exact ⟨hNext.toSettled, fun hLast =>
    hEnd (endReturned_append.mp hLast)⟩

/- In front of the first call. -/
theorem HInflateKept.start
    (hInit : hInflateInit2 cfg windowBits z = some st₀)
    (hPlain : disabled = true ∨ st₀.s.h.format ≠ .defl)
    (hStart : P [] st₀.s.h) :
    HInflateKept disabled x Ok P st₀ [] st₀ := by
  unfold hInflateInit2 at hInit
  cases hFormat : formatInit windowBits with
  | none =>
      rw [hFormat] at hInit
      cases hInit
  | some format =>
      rw [hFormat] at hInit
      cases hInit
      refine ⟨obufOk_initial _, ⟨[], Onward.refl _⟩,
        fun _ => ⟨⟨rfl, Nat.zero_le _, hStart, hPlain,
          fun hEnd => ?_⟩, fun hLast => ?_⟩⟩
      · cases hEnd
      · rcases hLast with ⟨event, hMem, _⟩
        cases hMem

theorem hInflateKept_of_run
    (hRule : CallRule x Ok P)
    (hInit : hInflateInit2 cfg windowBits z = some st₀)
    (hPlain : disabled = true ∨ st₀.s.h.format ≠ .defl)
    (hStart : P [] st₀.s.h)
    (hRun : Run (hInflateFed disabled x) st₀ trace st) :
    HInflateKept disabled x Ok P st₀ trace st :=
  hRun.invariant (HInflateKept disabled x Ok P st₀)
    (HInflateKept.start hInit hPlain hStart)
    (fun _ _ _ _ hKept hStep => hKept.step hRule hStep)

end Runs

------------------------------------------------------------
-- What Is Decoded
------------------------------------------------------------

/- The books of a stream have neither buffers nor `total_out`. -/
theorem positionInv_aside
    {src : ByteMem}
    {trace : List InflateEvent}
    {s s' : InflStream}
    (hInv : PositionInv src trace s)
    (hAside : Aside s s') : PositionInv src trace s' := by
  rw [hAside.strm]
  cases hInv with
  | blocks hAcc hLen hIdx hNoEnd =>
      refine .blocks ?_ hLen hIdx hNoEnd
      exact ⟨hAcc.save,
        ⟨hAcc.data.eobSeen, hAcc.data.inflStat⟩,
        hAcc.mark.congr rfl rfl, hAcc.header, hAcc.begun,
        hAcc.bits⟩
  | trailer hAt hEnd =>
      refine .trailer ?_ hEnd
      exact ⟨rfl, hAt.final, ⟨hAt.ok.idx, hAt.ok.len⟩,
        hAt.totalIn, hAt.bytes⟩

theorem decoded_aside
    {src : ByteMem}
    {trace : List InflateEvent}
    {s s' : InflStream}
    {d : Decoder}
    (hDecoded : Decoded src trace s d)
    (hAside : Aside s s') : Decoded src trace s' d := by
  rw [hAside.strm]
  exact ⟨hDecoded.reads, hDecoded.taken, hDecoded.goesOn,
    hDecoded.ended, hDecoded.gone, hDecoded.drained⟩

/- The calls of a session decode their stream. -/
theorem decoding_rule (x : List UInt8) :
    CallRule x DecodingEvent (fun trace s =>
      PositionInv (bytesAt x) trace s ∧
        ∃ d, Decoded (bytesAt x) trace s d) := by
  constructor
  · rintro trace s s' ⟨hInv, d, hDecoded⟩ hAside
    exact ⟨positionInv_aside hInv hAside, d,
      decoded_aside hDecoded hAside⟩
  · rintro trace s event s' hOk ⟨hInv, d, hDecoded⟩ hStep
    exact ⟨position_step hInv hOk.position hStep.2,
      hDecoded.step hInv hOk hStep.2⟩

/- The bits that were read are the first behind the header. -/
theorem decoded_taken
    {x : List UInt8}
    {trace : List InflateEvent}
    {s : InflStream}
    {d : Decoder}
    (hDecoded : Decoded (bytesAt x) trace s d)
    (hInv : PositionInv (bytesAt x) trace s)
    (hInside : s.totalIn ≤ x.length) :
    consumedBits trace <+: bitsOf (x.drop s.prefx.idx) := by
  have hBound :
      s.prefx.idx + ((consumedBits trace).length + 7) / 8 ≤
        x.length := by
    cases hInv with
    | trailer hAt _ =>
        have hTotal := hAt.totalIn
        unfold dataEnd at hTotal
        omega
    | blocks hAcc _ _ _ =>
        have hBits := congrArg List.length hAcc.bits
        have hHeader := hAcc.header
        rw [List.length_append, length_bitsOf,
          ByteMem.length_window] at hBits
        omega
  have hRest :
      (bytesAt x).window s.prefx.idx
          (x.length - s.prefx.idx) =
        x.drop s.prefx.idx := by
    rw [window_bytesAt (by omega)]
    exact List.take_of_length_le (by simp)
  rcases hDecoded.taken with ⟨n, hTaken⟩
  rw [← hRest]
  rcases Nat.le_total n (x.length - s.prefx.idx) with
    hLe | hLe
  · exact hTaken.trans
      (bitsOf_isPrefix (ByteMem.window_isPrefix _ _ hLe))
  · apply List.prefix_of_prefix_length_le hTaken
      (bitsOf_isPrefix (ByteMem.window_isPrefix _ _ hLe))
    rw [length_bitsOf, ByteMem.length_window]
    omega

section Decoding

variable {disabled : Bool} {x : List UInt8}
variable {P : List InflateEvent → InflStream → Prop}
variable {st₀ st : HInflate} {trace : List HInflateEvent}
variable {cfg : InflateConfig} {windowBits : Int}
variable {z : ZStream}

/- A session begins with the stream the library sets up. -/
theorem hInflateInit2_some
    (hInit : hInflateInit2 cfg windowBits z = some st₀) :
    (∃ s₀,
        st₀.s.h = inflateInitState s₀ ∧
          s₀.prefx.gzipHead = none) ∧
      st₀.calls = [] ∧ outputSoFar st₀ = z.out := by
  unfold hInflateInit2 at hInit
  cases hFormat : formatInit windowBits with
  | none =>
      rw [hFormat] at hInit
      cases hInit
  | some format =>
      rw [hFormat] at hInit
      cases hInit
      refine ⟨⟨_, rfl, rfl⟩, rfl, ?_⟩
      change z.out ++ [] ++ [] = z.out
      rw [List.append_nil, List.append_nil]

/- All that was produced came behind what there was. -/
theorem HInflateKept.output
    (hKept : HInflateKept disabled x DecodingEvent P st₀ trace st)
    (hInit : hInflateInit2 cfg windowBits z = some st₀)
    (hCard : ∀ event ∈ sentEvents st, DecodingEvent event) :
    outputSoFar st =
      z.out ++ producedBytes (sentEvents st) := by
  rcases hInflateInit2_some hInit with
    ⟨⟨s₀, hStart, _⟩, hNone, hOut⟩
  rcases hKept.onward with ⟨sents, hOnward⟩
  have hCalls := hOnward.calls
  rw [hNone, List.nil_append] at hCalls
  have hInside : ParkedInside st₀.s.h := by
    rw [hStart]
    exact Nat.zero_le _
  have hEvents :
      ∀ sent ∈ sents, DecodingEvent sent.event := by
    intro sent hMem
    apply hCard
    unfold sentEvents
    rw [hCalls]
    exact List.mem_map_of_mem hMem
  have hReports : ∀ sent ∈ sents, CardReports sent :=
    fun sent hMem ex hEx =>
      ((hEvents sent hMem).exchange ex hEx).reported
  have hSaves : ∀ sent ∈ sents, CallSaves sent :=
    fun sent hMem ex hEx =>
      ((hEvents sent hMem).exchange ex hEx).saved
  have hBytes :
      (sents.flatMap fun sent => sent.ret.produced) =
        producedBytes (sentEvents st) := by
    unfold producedBytes sentEvents
    rw [hCalls]
    clear hCalls hOnward hEvents hReports hSaves
    induction sents with
    | nil => rfl
    | cons sent sents ih =>
        rw [List.flatMap_cons, ih]
        unfold InflRet.produced
        cases hEx : sent.ret.exchange <;>
          simp [InflateSent.event, hEx]
  rw [(hOnward.output hInside hReports hSaves).2, hOut, hBytes]

/-
  With an internal buffer of any size or without, over any
  calls in which no DDCB fails and every one is a step of
  decoding: what the caller has, what waits in the buffer and
  what is parked in the dictionary is what the stream offered
  says, read from behind its header.
  Once the end is returned the decoder has read the final
  block, the caller has everything, and `total_in` is behind
  the trailer. The search for the end of a raw stream is to be
  off, or the stream not raw.
-/
theorem hInflate_decodes
    (hInit : hInflateInit2 cfg windowBits z = some st₀)
    (hPlain : disabled = true ∨ st₀.s.h.format ≠ .defl)
    (hRun : Run (hInflateFed disabled x) st₀ trace st)
    (hCard : ∀ event ∈ sentEvents st, DecodingEvent event) :
    ∃ d out,
      Reads (.start []) (consumedBits (sentEvents st)) out d ∧
        consumedBits (sentEvents st) <+:
          bitsOf (x.drop st.s.h.prefx.idx) ∧
        st.strm.out ++ st.s.obuf.waiting ++
            st.s.h.dict.pending =
          z.out ++ out ∧
        (EndReturned trace →
          d.mode = .done ∧ st.strm.out = z.out ++ out ∧
            st.strm.totalIn =
              dataEnd (sentEvents st) st.s.h +
                trailerLen st.s.h.format) := by
  rcases hInflateInit2_some hInit with ⟨⟨s₀, hStart, _⟩, _⟩
  have hKept := hInflateKept_of_run (decoding_rule x) hInit
    hPlain
    (by
      rw [hStart]
      exact ⟨.blocks (accounted_init (bytesAt x) s₀) rfl rfl
        (by simp [Returned]), _,
        decoded_init (bytesAt x) s₀⟩)
    hRun
  rcases hKept.follows hCard with ⟨hSettled, hGiven⟩
  rcases hSettled.stream with ⟨hInv, d, hDecoded⟩
  have hOutput := hKept.output hInit hCard
  have hTaken := decoded_taken hDecoded hInv
    (by rw [← hSettled.place]; exact hSettled.inside)
  refine ⟨d, _, hDecoded.reads, hTaken, hOutput,
    fun hEnd => ?_⟩
  have hAll := hGiven hEnd
  have hReturned := (hSettled.ended hAll.rc).1
  rcases hDecoded.returned hInv hReturned with
    ⟨hDone, hPending, hTotal⟩
  refine ⟨hDone, ?_, ?_⟩
  · unfold outputSoFar at hOutput
    rw [hAll.waiting, hPending, List.append_nil,
      List.append_nil] at hOutput
    exact hOutput
  · rw [hSettled.place]
    exact hTotal

end Decoding

------------------------------------------------------------
-- One Letter
------------------------------------------------------------

/- The block of one letter is offered as a whole. -/
def inflateLetter : HInflateCall where
  nextIn := [0x4b, 0x04, 0x00]
  availOut := 16
  flush := .noFlush
  env := fun _ => letterOffer.env

/- What the call returns and leaves. -/
def inflatedRet : Rc × HInflate :=
  (HInflateOp.inflate inflateLetter).ret true 1 rawInflate

theorem run_inflateLetter :
    Run (hInflateFed true [0x4b, 0x04, 0x00]) rawInflate
      [⟨inflateLetter, .streamEnd⟩] inflatedRet.2 := by
  refine Run.next Run.start ⟨by decide, 1, ?_⟩
  have hRc : inflatedRet.1 = .streamEnd := by decide
  change (HInflateOp.inflate inflateLetter).run true 1 _ = _
  rw [← hRc]
  exact HInflateOp.run_ret (by decide)

theorem hInflate_decodes_letter :
    ∃ d,
      Reads (.start []) (consumedBits (sentEvents inflatedRet.2))
          inflatedRet.2.strm.out d ∧
        inflatedRet.2.strm.out = [0x61] ∧ d.mode = .done := by
  have hSent :
      sentEvents inflatedRet.2 =
        [letterOffer.event letterBlock rawStream] := rfl
  have hInit :
      hInflateInit2 plainConfig (-15) ZStream.initial =
        some rawInflate := rfl
  rcases hInflate_decodes hInit (Or.inl rfl)
      run_inflateLetter (fun event hEvent => by
        rw [hSent, List.mem_singleton] at hEvent
        rw [hEvent]
        exact decodingEvent_letter) with
    ⟨d, out, hReads, _, _, hEnd⟩
  rcases hEnd ⟨_, rfl, rfl⟩ with ⟨hDone, hOut, _⟩
  refine ⟨d, ?_, rfl, hDone⟩
  rw [hOut]
  exact hReads

end Session
