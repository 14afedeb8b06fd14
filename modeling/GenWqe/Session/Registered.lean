import GenWqe.Formats.HeaderStores
import GenWqe.Formats.Registered
import GenWqe.Session.Layout

/-
  Whether decoding is the same with a header structure that
  the application has registered and without.

  Key definitions include:
    * `registered`
    * `DecodesAlike`
    * `Paired`

  Main results:
    * `Paired.step`
    * `decodesAlike_iff`
    * `decodesAlike_fails`
-/

------------------------------------------------------------
-- With a Structure and Without
------------------------------------------------------------

namespace Session

open Zedc Hardware Words ByteMem

/- A stream that was set up, with a structure registered. -/
def registered
    (g : GzedcHeader)
    (cfg : InflateConfig)
    (format : Format) : InflStream :=
  zedcInflateGetHeader g (zedcInflateInit2 cfg format)

/-
  Over any calls that are offered `x`, registering `g` makes
  no difference: the same calls return the same codes, make
  the same exchanges and leave the same stream but for what
  is kept of the structure; and nothing is stored where there
  is no buffer, or behind the size given for it.
-/
structure DecodesAlike
    (x : List UInt8)
    (g : GzedcHeader)
    (cfg : InflateConfig)
    (format : Format) : Prop where
  forth :
    ∀ trace s,
      Run (splitStep x) (registered g cfg format) trace s →
        ∃ i, Run (splitStep x) (zedcInflateInit2 cfg format)
          trace (s.rehead none i)
  back :
    ∀ trace t,
      Run (splitStep x) (zedcInflateInit2 cfg format) trace
          t →
        ∃ s i,
          Run (splitStep x) (registered g cfg format) trace
              s ∧
            t = s.rehead none i
  noFault :
    ∀ trace s,
      Run (splitStep x) (registered g cfg format) trace s →
        ∀ call : InflateCall,
          s.totalIn + call.availIn ≤ x.length →
            inflatePrepare call.flush
              (s.offer (bytesAt x) call) ≠ none
  within :
    ∀ trace s,
      Run (splitStep x) (registered g cfg format) trace s →
        ∀ r, s.prefx.gzipHead = some r → KeepsWithin g r

/-
  Two streams, one with a structure and one without, behind
  the same calls.
-/
structure Paired
    (x : List UInt8)
    (p₀ q₀ : Prefx)
    (trace : List InflateEvent)
    (s t : InflStream) : Prop where
  same : ∃ i, t = s.rehead none i
  left : HeaderPhase x p₀ trace s
  right : HeaderPhase x q₀ trace t

section Pairs

variable {x : List UInt8} {g : GzedcHeader}
variable {p₀ q₀ : Prefx} {trace : List InflateEvent}
variable {s t : InflStream} {i : Nat}

/- Only what begins like a header of GZIP can be no fit. -/
theorem magic_of_misfit
    (hNot : ¬ HeaderFits (some g) x) :
    gzipMagic <+: x ∧ 10 ≤ x.length := by
  by_contra hOther
  apply hNot
  intro flg u hMem rest hEq
  have hPre := (List.prefix_append gzipMagic [flg]).trans
    (mem_fixedPart_iff.mp hMem).2
  have hLen := length_fixedPart hMem
  refine absurd ⟨hPre.trans ⟨rest, hEq.symm⟩, ?_⟩ hOther
  rw [hEq, List.length_append]
  omega

/- Of bytes that fit, every front fits. -/
theorem headerFits_take
    (hStart : AtStart (some g) p₀)
    (hFits : HeaderFits (some g) x)
    (n : Nat) :
    HeaderFits (some g) (x.take n) := by
  by_contra hNot
  have hRefused := (hStart.reads (x.take n)).refused hNot
  -- only a header of GZIP can have something that is no fit
  have hMagic : gzipMagic <+: x :=
    (magic_of_misfit hNot).1.trans (List.take_prefix n x)
  have hAll := List.take_append_drop n x
  have hWhole : Refused (gzipBytes x p₀) := by
    rw [← hAll, gzipBytes_append]
    rcases hRefused with hNone | ⟨q, rest, hError⟩
    · rw [hNone]
      exact Or.inl rfl
    · rw [hError]
      exact Or.inr ⟨q, _, rfl⟩
  rcases hStart.answer hFits with
    ⟨w, -, rest, q, -, hOut⟩ | ⟨-, -, q, hOut⟩ |
      ⟨-, hOther, -, -⟩
  · rcases hWhole with hNone | ⟨q', rest', hError⟩
    · rw [hOut] at hNone
      cases hNone
    · rw [hOut] at hError
      cases hError
  · rcases hWhole with hNone | ⟨q', rest', hError⟩
    · rw [hOut] at hNone
      cases hNone
    · rw [hOut] at hError
      cases hError
  · exact hOther hMagic

/- The next bytes are answered alike. -/
theorem Paired.alike
    (hStart : AtStart (some g) p₀)
    (hBare : AtStart none q₀)
    (hBares : p₀.Bares q₀)
    (hFits : HeaderFits (some g) x)
    (hPaired : Paired x p₀ q₀ trace s (s.rehead none i))
    {call : InflateCall}
    (hLe : s.totalIn + call.availIn ≤ x.length) :
    HeaderAlike none i (s.offer (bytesAt x) call) := by
  intro _ hOpen
  change ∃ j rc p rest,
    gzipBytes
        ((bytesAt x).window s.totalIn call.availIn)
        s.prefx.prepared = some (rc, p, rest) ∧
      gzipBytes
        ((bytesAt x).window s.totalIn call.availIn)
        (s.prefx.prepared.rehead none i) =
          some (rc, p.rehead none j, rest)
  have hOpen' : s.prefx.headerState ≠ .headerDone := hOpen
  cases hPaired.left with
  | done _ hBytes _ => exact absurd (gzipBytes_ok hBytes) hOpen'
  | unread hUntouched hTotal hBytes hNone =>
      have hOffer :
          gzipBytes
              ((bytesAt x).window s.totalIn call.availIn)
              s.prefx.prepared =
            gzipBytes (x.take (s.totalIn + call.availIn))
              p₀ := by
        rw [take_window_bytesAt hLe, gzipBytes_append, hBytes]
        rfl
      have hOfferBare :
          gzipBytes
              ((bytesAt x).window s.totalIn call.availIn)
              (s.prefx.prepared.rehead none i) =
            gzipBytes (x.take (s.totalIn + call.availIn))
              q₀ := by
        cases hPaired.right with
        | unread _ _ hBytes' _ =>
            have hPrepared :
                (s.rehead none i).prefx.prepared =
                  s.prefx.prepared.rehead none i :=
              Prefx.prepared_rehead s.prefx
            rw [hPrepared] at hBytes'
            change gzipBytes (x.take s.totalIn) q₀ = _
              at hBytes'
            rw [take_window_bytesAt hLe, gzipBytes_append,
              hBytes']
            rfl
        | rejected _ _ _ _ _ _ hRefused =>
            exact absurd hRefused hNone
        | done _ hBytes' _ =>
            exact absurd (gzipBytes_ok hBytes') hOpen'
      rcases hStart.answer
          (headerFits_take hStart hFits
            (s.totalIn + call.availIn)) with
        ⟨w, -, rest, q, -, hOut⟩ | ⟨-, -, q, hOut⟩ |
          ⟨hTen, hMagic, hOut, -⟩
      · rw [← hOffer] at hOut
        rcases gzipBytes_bare (i := i) hOut nofun with
          ⟨j, hOther⟩
        exact ⟨j, .ok, q, rest, hOut, hOther⟩
      · rw [← hOffer] at hOut
        rcases gzipBytes_bare (i := i) hOut nofun with
          ⟨j, hOther⟩
        exact ⟨j, .needMoreData, q, [], hOut, hOther⟩
      · rcases hBares with ⟨j, rfl⟩
        have hOther := ((hBare.reads _).error hTen hMagic).1
        rw [hOffer, hOfferBare]
        exact ⟨j, .error, _, _, hOut, hOther⟩
  | rejected hUntouched _ hRejects hLen _ _ _ =>
      rw [Prefx.prepared_of_len hLen]
      cases (bytesAt x).window s.totalIn call.availIn with
      | nil => exact ⟨i, .needMoreData, _, [], rfl, rfl⟩
      | cons b l =>
          have hRejects' : Rejects (s.prefx.rehead none i) :=
            ⟨hRejects.state, hRejects.ten, hRejects.magic⟩
          refine ⟨i, .error, _, l, (hRejects.byte b l).1, ?_⟩
          rw [(hRejects'.byte b l).1, Prefx.collect_rehead]
          rfl

/- A call on both, which offers the same bytes. -/
theorem splitStep_rehead
    {event : InflateEvent}
    (hAlike :
      s.totalIn + event.call.availIn ≤ x.length →
        HeaderAlike none i (s.offer (bytesAt x) event.call)) :
    ∃ j,
      (∀ s', splitStep x s event s' →
        splitStep x (s.rehead none i) event
          (s'.rehead none j)) ∧
      ∀ t', splitStep x (s.rehead none i) event t' →
        ∃ s', splitStep x s event s' ∧
          t' = s'.rehead none j := by
  by_cases hLe : s.totalIn + event.call.availIn ≤ x.length
  swap
  · exact ⟨i, fun s' hStep => absurd hStep.1 hLe,
      fun t' hStep => absurd hStep.1 hLe⟩
  rcases zedcInflate_rehead (hAlike hLe) event.call.flush
    event.call.env with ⟨j, hCall⟩
  have hOffer :
      (s.rehead none i).offer (bytesAt x) event.call =
        (s.offer (bytesAt x) event.call).rehead none i := rfl
  refine ⟨j, ?_, ?_⟩
  · rintro s' ⟨-, hStep⟩
    refine ⟨hLe, ?_⟩
    unfold inflateStep at hStep ⊢
    rw [hOffer, hCall, hStep]
    rfl
  · rintro t' ⟨-, hStep⟩
    unfold inflateStep at hStep
    rw [hOffer, hCall] at hStep
    rcases Option.map_eq_some_iff.mp hStep with
      ⟨⟨rc, s', exchange⟩, hLeft, hRet⟩
    cases hRet
    exact ⟨s', ⟨hLe, hLeft⟩, rfl⟩

/- Both stay in the same phase of the header. -/
theorem Paired.next
    {s' t' : InflStream}
    {event : InflateEvent}
    (hStart : AtStart (some g) p₀)
    (hBare : AtStart none q₀)
    (hFits : HeaderFits (some g) x)
    (hPaired : Paired x p₀ q₀ trace s t)
    (hSame : ∃ j, t' = s'.rehead none j)
    (hLeft : splitStep x s event s')
    (hRight : splitStep x t event t') :
    Paired x p₀ q₀ (trace ++ [event]) s' t' := by
  refine ⟨hSame, ?_, ?_⟩
  · exact hPaired.left.step hStart
      (fun n _ => headerFits_take hStart hFits n) hLeft
  · exact hPaired.right.step hBare
      (fun n _ => headerFits_none _) hRight

/- Every run of one of them is one of the other. -/
theorem Paired.runs
    {s₀ t₀ : InflStream}
    (hStart : AtStart (some g) p₀)
    (hBare : AtStart none q₀)
    (hBares : p₀.Bares q₀)
    (hFits : HeaderFits (some g) x)
    (hPaired : Paired x p₀ q₀ [] s₀ t₀) :
    (∀ trace s, Run (splitStep x) s₀ trace s →
      ∃ t, Run (splitStep x) t₀ trace t ∧
        Paired x p₀ q₀ trace s t) ∧
    ∀ trace t, Run (splitStep x) t₀ trace t →
      ∃ s, Run (splitStep x) s₀ trace s ∧
        Paired x p₀ q₀ trace s t := by
  constructor
  · intro trace s hRun
    induction hRun with
    | start => exact ⟨t₀, .start, hPaired⟩
    | next hRun hStep ih =>
        rcases ih with ⟨t, hOther, hIs⟩
        rcases hIs.same with ⟨i, rfl⟩
        rcases splitStep_rehead
          (fun hLe => hIs.alike hStart hBare hBares hFits hLe)
          with ⟨j, hForth, -⟩
        have hStep' := hForth _ hStep
        exact ⟨_, hOther.next hStep',
          hIs.next hStart hBare hFits ⟨j, rfl⟩ hStep hStep'⟩
  · intro trace t hRun
    induction hRun with
    | start => exact ⟨s₀, .start, hPaired⟩
    | next hRun hStep ih =>
        rcases ih with ⟨s, hOther, hIs⟩
        rcases hIs.same with ⟨i, rfl⟩
        rcases splitStep_rehead
          (fun hLe => hIs.alike hStart hBare hBares hFits hLe)
          with ⟨j, -, hBack⟩
        rcases hBack _ hStep with ⟨s', hStep', rfl⟩
        exact ⟨s', hOther.next hStep',
          hIs.next hStart hBare hFits ⟨j, rfl⟩ hStep' hStep⟩

/- Where the header is answered alike, no call faults. -/
theorem Paired.prepares
    (hStart : AtStart (some g) p₀)
    (hBare : AtStart none q₀)
    (hBares : p₀.Bares q₀)
    (hFits : HeaderFits (some g) x)
    (hPaired : Paired x p₀ q₀ trace s t)
    {call : InflateCall}
    (hLe : s.totalIn + call.availIn ≤ x.length) :
    inflatePrepare call.flush (s.offer (bytesAt x) call) ≠
      none := by
  have hOpenCase :
      Untouched s → s.prefx.headerState ≠ .headerDone →
        inflatePrepare call.flush
          (s.offer (bytesAt x) call) ≠ none := by
    intro hUntouched hOpen
    apply hUntouched.prepares hOpen
    rcases hPaired.same with ⟨i, rfl⟩
    rcases hPaired.alike hStart hBare hBares hFits hLe
      hUntouched.format hOpen with ⟨_, _, _, _, hBytes, _⟩
    change gzipBytes
      ((bytesAt x).window s.totalIn call.availIn)
      s.prefx.prepared = _ at hBytes
    rw [hBytes]
    exact nofun
  cases hPaired.left with
  | unread hUntouched _ hBytes _ =>
      apply hOpenCase hUntouched
      rw [← Prefx.headerState_prepared]
      exact (gzipBytes_more hStart.open hBytes).1
  | rejected hUntouched _ hRejects _ _ _ _ =>
      apply hOpenCase hUntouched
      rw [hRejects.state]
      exact nofun
  | done _ hBytes _ =>
      intro hFault
      rcases inflatePrepare_fault hFault with
        ⟨s₁, n, hFlushed, hHeader⟩
      have hDone : s₁.prefx.headerState = .headerDone := by
        rw [hFlushed.strm]
        exact gzipBytes_ok hBytes
      unfold inflateHeader at hHeader
      rw [if_neg (fun hOpen => hOpen hDone)] at hHeader
      cases hHeader

end Pairs

------------------------------------------------------------
-- Other Formats
------------------------------------------------------------

section OtherFormats

variable {x : List UInt8} {g : GzedcHeader}
variable {cfg : InflateConfig} {format : Format}
variable {trace : List InflateEvent} {s t : InflStream}

theorem headerAlike_of_format
    {h : Option GzedcHeader} {i : Nat}
    (hFormat : s.format ≠ .gzip) :
    HeaderAlike h i s :=
  fun hGzip => absurd hGzip hFormat

/- The header of another format is never a fault. -/
theorem inflatePrepare_zlib
    (hFormat : s.format ≠ .gzip)
    (flush : Flush) :
    inflatePrepare flush s ≠ none := by
  have hLoop :
      ∀ (l : List UInt8) (s : InflStream),
        s.format ≠ .gzip → remHeaderLoop l s ≠ none := by
    intro l
    induction l with
    | nil =>
        intro s _ hNone
        cases hNone
    | cons b l ih =>
        intro s hFormat
        rw [remHeaderLoop, inflateRemHeaderByte_zlib hFormat]
        generalize inflateRemZlibHeader
          (s.prefx.collect b) = ret
        rcases ret with ⟨_ | _ | _ | _, p, _ | dictid⟩
        · intro hSame
          cases hSame
        · intro hSame
          cases hSame
        · exact ih _ hFormat
        · exact ih _ hFormat
        · intro hSame
          cases hSame
        · intro hSame
          cases hSame
        · intro hSame
          cases hSame
        · intro hSame
          cases hSame
  intro hFault
  rcases inflatePrepare_fault hFault with
    ⟨s₁, n, hFlushed, hHeader⟩
  have hKeep : (remHeaderPrepare s₁).format ≠ .gzip := by
    rw [hFlushed.strm]
    unfold remHeaderPrepare
    split <;> exact hFormat
  unfold inflateHeader inflateFormatRemHeader at hHeader
  split at hHeader
  · split at hHeader
    · cases hHeader
    · cases hRest :
          remHeaderLoop s₁.nextIn (remHeaderPrepare s₁) with
      | none => exact hLoop _ _ hKeep hRest
      | some out =>
          rcases out with ⟨rc, s₂⟩
          rw [hRest] at hHeader
          simp only at hHeader
          split at hHeader <;> cases hHeader
  · cases hHeader

/- A call keeps the format and the structure. -/
theorem splitStep_keeps
    {event : InflateEvent} {s' : InflStream}
    (hFormat : s.format ≠ .gzip)
    (hStep : splitStep x s event s') :
    s'.format = s.format ∧
      s'.prefx.gzipHead = s.prefx.gzipHead := by
  have hCall := hStep.2
  unfold inflateStep at hCall
  refine ⟨(zedcInflate_format hCall).1, ?_⟩
  have hOffer :
      (s.offer (bytesAt x) event.call).format ≠ .gzip :=
    hFormat
  rcases zedcInflate_rehead
      (h := s.prefx.gzipHead) (i := s.prefx.gzipHeaderIdx)
      (headerAlike_of_format hOffer) event.call.flush
      event.call.env with ⟨j, hSame⟩
  have hSelf :
      (s.offer (bytesAt x) event.call).rehead
          s.prefx.gzipHead s.prefx.gzipHeaderIdx =
        s.offer (bytesAt x) event.call := rfl
  rw [hSelf, hCall] at hSame
  exact congrArg
    (fun ret => (ret.map fun r =>
      r.strm.prefx.gzipHead).getD none) hSame

theorem keeps_of_run
    {s₀ : InflStream}
    (hFormat : s₀.format ≠ .gzip)
    (hRun : Run (splitStep x) s₀ trace s) :
    s.format = s₀.format ∧
      s.prefx.gzipHead = s₀.prefx.gzipHead :=
  hRun.invariant
    (fun _ s => s.format = s₀.format ∧
      s.prefx.gzipHead = s₀.prefx.gzipHead)
    ⟨rfl, rfl⟩
    (fun _ s _ s' hKeep hStep => by
      have hNext :=
        splitStep_keeps (by rw [hKeep.1]; exact hFormat)
          hStep
      exact ⟨hNext.1.trans hKeep.1,
        hNext.2.trans hKeep.2⟩)

/- Other formats have no use for the structure. -/
theorem decodesAlike_zlib
    (hFormat : format ≠ .gzip) :
    DecodesAlike x g cfg format := by
  have hBoth :
      ∀ {s : InflStream} {i : Nat} {event : InflateEvent},
        s.format = format →
          ∃ j,
            (∀ s', splitStep x s event s' →
              splitStep x (s.rehead none i) event
                (s'.rehead none j)) ∧
            ∀ t', splitStep x (s.rehead none i) event t' →
              ∃ s', splitStep x s event s' ∧
                t' = s'.rehead none j := by
    intro s i event hIs
    apply splitStep_rehead
    intro _
    apply headerAlike_of_format
    change s.format ≠ .gzip
    rw [hIs]
    exact hFormat
  have hFormatOf :
      ∀ {trace s},
        Run (splitStep x) (registered g cfg format) trace s →
          s.format = format :=
    fun hRun => (keeps_of_run hFormat hRun).1
  refine ⟨?_, ?_, ?_, ?_⟩
  · intro trace s hRun
    induction hRun with
    | start => exact ⟨_, .start⟩
    | next hRun hStep ih =>
        rcases ih with ⟨i, hOther⟩
        rcases hBoth (hFormatOf hRun) with ⟨j, hForth, -⟩
        exact ⟨j, hOther.next (hForth _ hStep)⟩
  · intro trace t hRun
    induction hRun with
    | start => exact ⟨_, _, .start, rfl⟩
    | next hRun hStep ih =>
        rcases ih with ⟨s, i, hOther, rfl⟩
        rcases hBoth (hFormatOf hOther) with ⟨j, -, hBack⟩
        rcases hBack _ hStep with ⟨s', hStep', rfl⟩
        exact ⟨s', j, hOther.next hStep', rfl⟩
  · intro trace s hRun call _
    apply inflatePrepare_zlib
    change s.format ≠ .gzip
    rw [hFormatOf hRun]
    exact hFormat
  · intro trace s hRun r hSome
    have hHead := (keeps_of_run hFormat hRun).2
    rw [hSome] at hHead
    cases hHead
    exact ⟨rfl, .refl _ _, rfl, .refl _ _, rfl, .refl _ _⟩

end OtherFormats

------------------------------------------------------------
-- The Exact Condition
------------------------------------------------------------

section Condition

variable {x : List UInt8} {g : GzedcHeader}
variable {cfg : InflateConfig}

theorem atStart_registered :
    AtStart (some g)
      (registered g cfg .gzip).prefx.prepared :=
  ⟨rfl, nofun, rfl, rfl⟩

theorem atStart_bare :
    AtStart none
      (zedcInflateInit2 cfg .gzip).prefx.prepared :=
  ⟨rfl, nofun, rfl, rfl⟩

theorem untouched_registered :
    Untouched (registered g cfg .gzip) := by
  have hStat : finalEob 0 = false := by decide
  exact ⟨rfl, ⟨rfl, hStat⟩, rfl, rfl, rfl, fun _ => rfl⟩

theorem paired_start :
    Paired x (registered g cfg .gzip).prefx.prepared
      (zedcInflateInit2 cfg .gzip).prefx.prepared []
      (registered g cfg .gzip)
      (zedcInflateInit2 cfg .gzip) := by
  refine ⟨⟨_, rfl⟩, ?_, ?_⟩
  · exact .start untouched_registered rfl
  · exact .start (untouched_init rfl) rfl

/- With room for all fields nothing is different. -/
theorem decodesAlike_gzip
    (hFits : HeaderFits (some g) x) :
    DecodesAlike x g cfg .gzip := by
  have hBares :
      (registered g cfg .gzip).prefx.prepared.Bares
        (zedcInflateInit2 cfg .gzip).prefx.prepared :=
    ⟨_, rfl⟩
  rcases Paired.runs atStart_registered atStart_bare hBares
    hFits (@paired_start x g cfg) with ⟨hForth, hBack⟩
  refine ⟨?_, ?_, ?_, ?_⟩
  · intro trace s hRun
    rcases hForth trace s hRun with ⟨t, hOther, hIs⟩
    rcases hIs.same with ⟨i, rfl⟩
    exact ⟨i, hOther⟩
  · intro trace t hRun
    rcases hBack trace t hRun with ⟨s, hOther, hIs⟩
    rcases hIs.same with ⟨i, hSame⟩
    exact ⟨s, i, hOther, hSame⟩
  · intro trace s hRun call hLe
    rcases hForth trace s hRun with ⟨t, _, hIs⟩
    exact hIs.prepares atStart_registered atStart_bare hBares
      hFits hLe
  · intro trace s hRun r hSome
    rcases hForth trace s hRun with ⟨t, _, hIs⟩
    rcases hIs.left.within atStart_registered r hSome with
      ⟨r₀, hHead, hKeep⟩
    cases hHead
    exact ⟨hKeep.extraMax, hKeep.extra, hKeep.nameMax,
      hKeep.name, hKeep.commMax, hKeep.comment⟩

/- The first bytes that do not fit, and the ones before. -/
theorem exists_first_misfit
    (hNot : ¬ HeaderFits (some g) x) :
    ∃ n < x.length,
      ¬ HeaderFits (some g) (x.take (n + 1)) ∧
        ∀ m ≤ n, HeaderFits (some g) (x.take m) := by
  classical
  have hSome :
      ∃ k, ¬ HeaderFits (some g) (x.take k) :=
    ⟨x.length, by rw [List.take_length]; exact hNot⟩
  have hFirst := Nat.find_spec hSome
  have hBefore :
      ∀ m < Nat.find hSome, HeaderFits (some g) (x.take m) :=
    fun m hLt => not_not.mp (Nat.find_min hSome hLt)
  have hLe : Nat.find hSome ≤ x.length :=
    Nat.find_min' hSome (by rw [List.take_length]; exact hNot)
  have hTen := (magic_of_misfit hFirst).2
  rw [List.length_take] at hTen
  refine ⟨Nat.find hSome - 1, by omega, ?_, ?_⟩
  · rw [Nat.sub_add_cancel (by omega)]
    exact hFirst
  · exact fun m hM => hBefore m (by omega)

/- Up to there the parser wants more. -/
theorem more_before_misfit
    {p₀ : Prefx} {n : Nat}
    (hStart : AtStart (some g) p₀)
    (hNot : ¬ HeaderFits (some g) (x.take (n + 1)))
    (hFits : ∀ m ≤ n, HeaderFits (some g) (x.take m)) :
    ∀ m ≤ n, ∃ q,
      gzipBytes (x.take m) p₀ =
        some (.needMoreData, q, []) := by
  intro m hM
  have hRefused := (hStart.reads (x.take (n + 1))).refused hNot
  have hMagic : gzipMagic <+: x :=
    (magic_of_misfit hNot).1.trans (List.take_prefix _ x)
  rcases hStart.answer (hFits m hM) with
    ⟨w, -, rest, q, -, hOut⟩ | ⟨-, -, hMore⟩ |
      ⟨hTen, hOther, -, -⟩
  · -- a header that is done stays done
    have hSplit :
        x.take (n + 1) =
          x.take m ++ (x.take (n + 1)).drop m := by
      have hTake := List.take_append_drop m (x.take (n + 1))
      rw [List.take_take, Nat.min_eq_left (by omega)] at hTake
      exact hTake.symm
    rw [hSplit, gzipBytes_append, hOut] at hRefused
    rcases hRefused with hNone | ⟨q', rest', hError⟩
    · cases hNone
    · cases hError
  · exact hMore
  · rw [List.length_take] at hTen
    rw [prefix_take_iff (show 3 ≤ m by omega)] at hOther
    exact absurd hMagic hOther

section Misfit

variable {src : ByteMem} {s : InflStream}
variable {call : InflateCall}

/- Where the parser faults, so does the call. -/
theorem prepare_fault
    (hUntouched : Untouched s)
    (hOpen : s.prefx.headerState ≠ .headerDone)
    (hSmall : call.availIn ≤ zedcInflAvailInMax)
    (hSpace : call.availOut ≠ 0)
    (hFault :
      gzipBytes (src.window s.totalIn call.availIn)
        s.prefx.prepared = none) :
    inflatePrepare call.flush (s.offer src call) = none := by
  have hOffer := hUntouched.offer src call
  have hNone := hOffer.pending
  have hAvail :
      (s.offer src call).availIn = call.availIn :=
    ByteMem.length_window _ _ _
  have hOut : (s.offer src call).availOut = call.availOut :=
    rfl
  rw [inflatePrepare_open hOffer.data (by omega) (by omega)
    (by omega)]
  unfold inflatePrefix inflateHeader
  have hOpen' :
      ((s.offer src call).giveOut
        (s.offer src call).dict.obytesInDict).prefx.headerState ≠
          .headerDone := hOpen
  rw [if_pos hOpen', inflateFormatRemHeader_fault]
  · exact hOffer.format
  · exact hFault

/- Where it refuses the header, the call says so. -/
theorem refused_step
    {q : Prefx} {rest : List UInt8}
    (hUntouched : Untouched s)
    (hOpen : s.prefx.headerState ≠ .headerDone)
    (hSmall : call.availIn ≤ zedcInflAvailInMax)
    (hSpace : call.availOut ≠ 0)
    (hError :
      gzipBytes (src.window s.totalIn call.availIn)
        s.prefx.prepared = some (.error, q, rest)) :
    ∃ event s',
      event.call = call ∧ event.rc = .errGzipHdr ∧
        inflateStep src s event s' := by
  have hPrepares := hUntouched.prepares hOpen (by
    rw [hError]
    exact nofun)
  have hStep :
      ∃ event s', event.call = call ∧
        inflateStep src s event s' := by
    unfold inflateStep zedcInflate
    cases hPrepare :
        inflatePrepare call.flush (s.offer src call) with
    | none => exact absurd hPrepare hPrepares
    | some result =>
        rcases result with ⟨rc, s'⟩ | s₂
        · refine ⟨⟨call, rc, none⟩, s', rfl, ?_⟩
          rw [hPrepare]
        · cases inflatePrepare_outcome hPrepare with
          | ready _ hFlushed _ _ hDone _ hSome =>
              rcases hUntouched.offered hOpen hFlushed hDone
                with ⟨hdrRc, rest', hBytes, hIs, -⟩
              rw [hError] at hBytes
              cases hBytes
              cases hIs
  rcases hStep with ⟨event, s', hCall, hStep⟩
  refine ⟨event, s', hCall, ?_, hStep⟩
  cases hUntouched.called hOpen hStep with
  | kept hWhy _ _ _ _ =>
      rw [hCall] at hWhy
      rcases hWhy with hLarge | hFull
      · exact absurd hSmall (Nat.not_le.mpr hLarge)
      · exact absurd hFull hSpace
  | more _ hOut _ _ _ =>
      rw [hCall, hError] at hOut
      cases hOut
  | error hRc _ _ _ => exact hRc
  | done _ hOut =>
      rw [hCall, hError] at hOut
      cases hOut

end Misfit

/-
  Where a field has no room, a header of GZIP is refused, or
  a NULL pointer is written through, and without structure
  it is not.
-/
theorem not_decodesAlike
    (hNot : ¬ HeaderFits (some g) x) :
    ¬ DecodesAlike x g cfg .gzip := by
  intro hAlike
  have hStart := @atStart_registered g cfg
  rcases exists_first_misfit hNot with
    ⟨n, hLt, hMisfit, hFits⟩
  rcases reading_run untouched_registered rfl hStart.open
    hLt.le (more_before_misfit hStart hMisfit hFits) with
    ⟨trace, s, hRun, hUntouched, hTotal, hBytes⟩
  have hOpen : s.prefx.headerState ≠ .headerDone := by
    rw [← Prefx.headerState_prepared]
    exact (gzipBytes_more hStart.open hBytes).1
  have hOffer :
      gzipBytes
          ((bytesAt x).window s.totalIn oneByte.availIn)
          s.prefx.prepared =
        gzipBytes (x.take (n + 1))
          (registered g cfg .gzip).prefx.prepared := by
    rw [take_window_bytesAt (show n + 1 ≤ x.length from hLt),
      gzipBytes_append, hBytes, hTotal]
    rfl
  have hLe : s.totalIn + oneByte.availIn ≤ x.length := by
    rw [hTotal]
    exact hLt
  rcases (hStart.reads (x.take (n + 1))).refused hMisfit with
    hNone | ⟨q, rest, hError⟩
  · exact hAlike.noFault trace s hRun oneByte hLe
      (prepare_fault hUntouched hOpen (by decide) (by decide)
        (hOffer.trans hNone))
  · rcases refused_step hUntouched hOpen (by decide)
      (by decide) (hOffer.trans hError) with
      ⟨event, s', hCall, hRc, hStep⟩
    have hNext :=
      hRun.next ⟨by rw [hCall]; exact hLe, hStep⟩
    rcases hAlike.forth _ s' hNext with ⟨i, hOther⟩
    have hPhase :=
      HeaderPhase.run (@atStart_bare cfg)
        (fun m _ => headerFits_none (x.take m))
        (untouched_init rfl) rfl hOther
    have hRefused : HeaderRefused (trace ++ [event]) :=
      headerRefused_append.mpr (Or.inr hRc)
    cases hPhase with
    | unread _ _ _ hNo => exact hNo hRefused
    | rejected _ _ _ _ _ hOtherMagic _ =>
        exact hOtherMagic (magic_of_misfit hNot).1
    | done _ _ hNo => exact hNo hRefused

/-
  Registering a structure makes no difference exactly if what
  a GZIP header announces has room in it.
-/
theorem decodesAlike_iff
    (x : List UInt8)
    (g : GzedcHeader)
    (cfg : InflateConfig)
    (format : Format) :
    DecodesAlike x g cfg format ↔
      (format = .gzip → HeaderFits (some g) x) := by
  constructor
  · rintro hAlike rfl
    by_contra hNot
    exact not_decodesAlike hNot hAlike
  · intro hFits
    by_cases hFormat : format = .gzip
    · subst hFormat
      exact decodesAlike_gzip (hFits rfl)
    · exact decodesAlike_zlib hFormat

/- An application that wants none of the fields. -/
def noBuffers : GzedcHeader where
  text := false
  time := 0
  xflags := 0
  os := 0
  extra := none
  extraLen := 0
  extraMax := 0
  name := none
  nameMax := 0
  comment := none
  commMax := 0
  done := false

/- A name that has no room is refused, not passed over. -/
theorem decodesAlike_fails :
    ¬ DecodesAlike namedHeader noBuffers noFlags .gzip := by
  intro hAlike
  have hSome :
      (zedcInflate wholeHeader.flush wholeHeader.env
        ((registered noBuffers noFlags .gzip).offer
          (bytesAt namedHeader) wholeHeader)).isSome =
        true := rfl
  have hRc :
      (wholeHeader.ret (bytesAt namedHeader)
        (registered noBuffers noFlags .gzip)).rc =
          .errGzipHdr := rfl
  have hStep :
      splitStep namedHeader (registered noBuffers noFlags .gzip)
        (wholeHeader.event (bytesAt namedHeader)
          (registered noBuffers noFlags .gzip))
        (wholeHeader.ret (bytesAt namedHeader)
          (registered noBuffers noFlags .gzip)).strm :=
    ⟨Nat.le_refl 12, inflateStep_ret hSome⟩
  rcases hAlike.forth _ _ (Run.next Run.start hStep) with
    ⟨i, hOther⟩
  have hPhase :=
    HeaderPhase.run (@atStart_bare noFlags)
      (fun m _ => headerFits_none (namedHeader.take m))
      (untouched_init rfl) rfl hOther
  have hRefused :
      HeaderRefused
        ([] ++
          [wholeHeader.event (bytesAt namedHeader)
            (registered noBuffers noFlags .gzip)]) :=
    headerRefused_append.mpr (Or.inr hRc)
  cases hPhase with
  | unread _ _ _ hNo => exact hNo hRefused
  | rejected _ _ _ _ _ hMagic _ =>
      exact hMagic ⟨[0x08, 0, 0, 0, 0, 0, 3, 0x61, 0], rfl⟩
  | done _ _ hNo => exact hNo hRefused

end Condition

end Session
