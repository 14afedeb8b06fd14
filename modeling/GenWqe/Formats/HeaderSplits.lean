import GenWqe.Formats.HeaderRuns

/-
  The GZIP header over runs of calls that are offered a
  string of bytes piece by piece: where it is done, when it
  is refused, and that the pieces make no difference.

  Key definitions include:
    * `splitStep`
    * `AcceptsGrammar`

  Main results:
    * `headerPhase_run`
    * `acceptsGrammar_iff`
-/

namespace Zedc

open Words ByteMem

------------------------------------------------------------
-- Offering a String
------------------------------------------------------------

/- The bytes of `x`, by their place. -/
def bytesAt (x : List UInt8) : ByteMem :=
  fun i => x.getD i 0

theorem window_bytesAt
    {x : List UInt8} {i n : Nat}
    (hLe : i + n ≤ x.length) :
    (bytesAt x).window i n = (x.drop i).take n := by
  apply List.ext_getElem?
  intro j
  rw [window_getElem?, List.getElem?_take,
    List.getElem?_drop]
  split
  · unfold bytesAt
    rw [List.getD_eq_getElem?_getD]
    have hLt : i + j < x.length := by omega
    rw [List.getElem?_eq_getElem hLt]
    rfl
  · rfl

theorem take_window_bytesAt
    {x : List UInt8} {i n : Nat}
    (hLe : i + n ≤ x.length) :
    x.take (i + n) =
      x.take i ++ (bytesAt x).window i n := by
  rw [window_bytesAt hLe, List.take_add]

/- A call that is offered the next bytes of `x`. -/
def splitStep
    (x : List UInt8)
    (s : InflStream)
    (event : InflateEvent)
    (s' : InflStream) : Prop :=
  s.totalIn + event.call.availIn ≤ x.length ∧
    inflateStep (bytesAt x) s event s'

/- A header was refused. -/
def HeaderRefused (trace : List InflateEvent) : Prop :=
  ∃ event ∈ trace, event.rc = .errGzipHdr

theorem headerRefused_append
    {trace : List InflateEvent} {event : InflateEvent} :
    HeaderRefused (trace ++ [event]) ↔
      HeaderRefused trace ∨ event.rc = .errGzipHdr := by
  constructor
  · rintro ⟨e, hMem, hRc⟩
    rcases List.mem_append.mp hMem with hMem | hMem
    · exact Or.inl ⟨e, hMem, hRc⟩
    · rw [List.mem_singleton.mp hMem] at hRc
      exact Or.inr hRc
  · rintro (⟨e, hMem, hRc⟩ | hRc)
    · exact ⟨e, List.mem_append_left _ hMem, hRc⟩
    · exact ⟨event, by simp, hRc⟩

theorem not_headerRefused_append
    {trace : List InflateEvent} {event : InflateEvent}
    (hNone : ¬HeaderRefused trace)
    (hRc : event.rc ≠ .errGzipHdr) :
    ¬HeaderRefused (trace ++ [event]) :=
  fun h => (headerRefused_append.mp h).elim hNone hRc

------------------------------------------------------------
-- Accepting the Grammar
------------------------------------------------------------

/-
  The header is done behind a header of RFC 1952 at the front
  of the bytes and was not passed; it is refused where the
  magic bytes differ, as soon as the fixed part is there.
-/
structure HeaderParsed
    (x : List UInt8)
    (trace : List InflateEvent)
    (s : InflStream) : Prop where
  le : s.prefx.idx ≤ x.length
  done :
    s.prefx.headerState = .headerDone ↔
      x.take s.prefx.idx ∈ rfcHeaders
  shortest :
    ∀ n < s.prefx.idx, x.take n ∉ rfcHeaders
  refused :
    HeaderRefused trace ↔
      10 ≤ s.prefx.idx ∧ ¬gzipMagic <+: x

/- The parser's state behind a byte, whatever it answers. -/
def Prefx.behind (p : Prefx) (b : UInt8) : Prefx :=
  match inflateRemGzipHeader b (p.collect b) with
  | none => p
  | some (_, p') => p'.next

theorem foldl_behind_of_bytes
    {l rest : List UInt8} {p q : Prefx} {rc : HdrRc}
    (hBytes : gzipBytes l p = some (rc, q, rest)) :
    (l.take (q.idx - p.idx)).foldl Prefx.behind p = q := by
  have hByte : ∀ {b : UInt8} {rc : HdrRc} {p p₁ : Prefx},
      inflateRemGzipHeader b (p.collect b) =
          some (rc, p₁) →
        p.behind b = p₁.next ∧
          p₁.next.idx = p.idx + 1 := by
    intro b rc p p₁ hParse
    refine ⟨?_, congrArg (· + 1)
      ((inflateRemGzipHeader_keeps hParse).idx.trans
        (Prefx.collect_keeps b p).idx)⟩
    unfold Prefx.behind
    rw [hParse]
  induction l generalizing p with
  | nil =>
      cases hBytes
      rw [List.take_nil]
      rfl
  | cons b l ih =>
      rw [gzipBytes] at hBytes
      split at hBytes
      · cases hBytes
      · rename_i p₁ hParse
        rcases hByte hParse with ⟨hBehind, hIdx⟩
        have hSum := gzipBytes_idx hBytes
        have hLe := length_rest_le hBytes
        have hSucc :
            q.idx - p.idx = (q.idx - p₁.next.idx) + 1 := by
          omega
        rw [hSucc, List.take_succ_cons, List.foldl_cons,
          hBehind]
        exact ih hBytes
      · rename_i rc' p₁ hRc hParse
        cases hBytes
        rcases hByte hParse with ⟨hBehind, hIdx⟩
        have hOne : p₁.next.idx - p.idx = 0 + 1 := by omega
        rw [hOne, List.take_succ_cons, List.take_zero,
          List.foldl_cons, hBehind]
        rfl

------------------------------------------------------------
-- Phases of a Run
------------------------------------------------------------

/-
  Where a run is: in the header, at the header of another
  format, or behind the header.
-/
inductive HeaderPhase
    (x : List UInt8)
    (p₀ : Prefx)
    (trace : List InflateEvent)
    (s : InflStream) : Prop
  | unread :
      Untouched s →
      s.totalIn ≤ x.length →
      gzipBytes (x.take s.totalIn) p₀ =
        some (.needMoreData, s.prefx.prepared, []) →
      ¬HeaderRefused trace →
      HeaderPhase x p₀ trace s
  | rejected :
      Untouched s →
      s.totalIn ≤ x.length →
      Rejects s.prefx →
      s.prefx.len ≠ 0 →
      (x.take s.prefx.idx).foldl Prefx.behind p₀ =
        s.prefx →
      ¬gzipMagic <+: x →
      HeaderRefused trace →
      HeaderPhase x p₀ trace s
  | done
      {m : Nat} {rest : List UInt8} :
      m ≤ x.length →
      gzipBytes (x.take m) p₀ = some (.ok, s.prefx, rest) →
      ¬HeaderRefused trace →
      HeaderPhase x p₀ trace s

/- The parser at the start of a header. -/
structure AtStart
    (g : Option GzedcHeader)
    (p₀ : Prefx) : Prop where
  idx : p₀.idx = 0
  len : p₀.len ≠ 0
  state : p₀.headerState = .headerStart
  head : Alike p₀.gzipHead g

section Phases

variable {x : List UInt8} {g : Option GzedcHeader}
variable {p₀ : Prefx} {trace : List InflateEvent}
variable {s s' : InflStream} {event : InflateEvent}

theorem AtStart.reads
    (hStart : AtStart g p₀)
    (l : List UInt8) :
    ReadsHeader p₀ g l (gzipBytes l p₀) :=
  gzipBytes_reads hStart.idx hStart.state hStart.head l

theorem AtStart.open
    (hStart : AtStart g p₀) :
    p₀.headerState ≠ .headerDone := by
  rw [hStart.state]
  exact nofun

/- The three answers to bytes that fit. -/
theorem AtStart.answer
    {l : List UInt8}
    (hStart : AtStart g p₀)
    (hFits : HeaderFits g l) :
    (∃ w ∈ readHeaders, ∃ rest q, l = w ++ rest ∧
      gzipBytes l p₀ = some (.ok, q, rest)) ∨
    (¬Ahead readHeaders l ∧
      (l.length < 10 ∨ gzipMagic <+: l) ∧
      ∃ q, gzipBytes l p₀ = some (.needMoreData, q, [])) ∨
    (10 ≤ l.length ∧ ¬gzipMagic <+: l ∧
      gzipBytes l p₀ =
        some (.error, (p₀.tenth (l.take 10)).next,
          l.drop 10) ∧
      Rejects (p₀.tenth (l.take 10)).next) := by
  have hReads := hStart.reads l
  by_cases hAhead : Ahead readHeaders l
  · rcases hAhead with ⟨w, hw, rest, rfl⟩
    rcases hReads.done w hw rest rfl hFits with ⟨q, hOut⟩
    exact Or.inl ⟨w, hw, rest, q, rfl, hOut⟩
  · by_cases hMagic : l.length < 10 ∨ gzipMagic <+: l
    · exact Or.inr (Or.inl ⟨hAhead, hMagic,
        hReads.more hMagic hAhead hFits⟩)
    · rw [not_or, Nat.not_lt] at hMagic
      exact Or.inr (Or.inr ⟨hMagic.1, hMagic.2,
        hReads.error hMagic.1 hMagic.2⟩)

/- What the bytes must be for each answer of the parser. -/
theorem AtStart.ok_ahead
    {l rest : List UInt8} {q : Prefx}
    (hStart : AtStart g p₀)
    (hFits : HeaderFits g l)
    (hBytes : gzipBytes l p₀ = some (.ok, q, rest)) :
    ∃ w ∈ readHeaders, l = w ++ rest := by
  rcases hStart.answer hFits with
    ⟨w, hw, rest', q', hEq, hOut⟩ | ⟨-, -, q', hOut⟩ |
      ⟨-, -, hOut, -⟩
  · rw [hBytes] at hOut
    cases hOut
    exact ⟨w, hw, hEq⟩
  · rw [hBytes] at hOut
    cases hOut
  · rw [hBytes] at hOut
    cases hOut

theorem AtStart.more_none
    {l : List UInt8} {q : Prefx}
    (hStart : AtStart g p₀)
    (hFits : HeaderFits g l)
    (hBytes :
      gzipBytes l p₀ = some (.needMoreData, q, [])) :
    ¬Ahead readHeaders l ∧
      (10 ≤ l.length → gzipMagic <+: l) := by
  rcases hStart.answer hFits with
    ⟨w, hw, rest', q', hEq, hOut⟩ | ⟨hNone, hMagic, -⟩ |
      ⟨-, -, hOut, -⟩
  · rw [hBytes] at hOut
    cases hOut
  · exact ⟨hNone, fun hTen =>
      hMagic.resolve_left (Nat.not_lt.mpr hTen)⟩
  · rw [hBytes] at hOut
    cases hOut

theorem AtStart.error_magic
    {l rest : List UInt8} {q : Prefx}
    (hStart : AtStart g p₀)
    (hFits : HeaderFits g l)
    (hBytes : gzipBytes l p₀ = some (.error, q, rest)) :
    10 ≤ l.length ∧ ¬gzipMagic <+: l ∧ Rejects q := by
  rcases hStart.answer hFits with
    ⟨w, hw, rest', q', hEq, hOut⟩ | ⟨-, -, q', hOut⟩ |
      ⟨hTen, hMagic, hOut, hRejects⟩
  · rw [hBytes] at hOut
    cases hOut
  · rw [hBytes] at hOut
    cases hOut
  · rw [hBytes] at hOut
    cases hOut
    exact ⟨hTen, hMagic, hRejects⟩

/- Of a long enough part the front is that of the whole. -/
theorem prefix_take_iff
    {v : List UInt8} {n : Nat}
    (hLe : v.length ≤ n) :
    v <+: x.take n ↔ v <+: x := by
  constructor
  · exact fun h => h.trans (List.take_prefix n x)
  · intro h
    by_cases hAll : x.length ≤ n
    · rw [List.take_of_length_le hAll]
      exact h
    · exact List.prefix_of_prefix_length_le h
        (List.take_prefix n x)
        (by rw [List.length_take]; omega)

/- What is left to read is read by a call. -/
theorem unread_step
    (hStart : AtStart g p₀)
    (hFits : ∀ n ≤ x.length, HeaderFits g (x.take n))
    (hUntouched : Untouched s)
    (hTotal : s.totalIn ≤ x.length)
    (hBytes :
      gzipBytes (x.take s.totalIn) p₀ =
        some (.needMoreData, s.prefx.prepared, []))
    (hNone : ¬HeaderRefused trace)
    (hStep : splitStep x s event s') :
    HeaderPhase x p₀ (trace ++ [event]) s' := by
  rcases hStep with ⟨hLe, hStep⟩
  have hOpen : s.prefx.headerState ≠ .headerDone := by
    rw [← Prefx.headerState_prepared]
    exact (gzipBytes_more hStart.open hBytes).1
  have hOffer :
      gzipBytes
          ((bytesAt x).window s.totalIn event.call.availIn)
          s.prefx.prepared =
        gzipBytes (x.take (s.totalIn + event.call.availIn))
          p₀ := by
    rw [take_window_bytesAt hLe, gzipBytes_append, hBytes]
    rfl
  cases hUntouched.called hOpen hStep with
  | kept _ hRc hAfter hPrefx hSame =>
      refine .unread hAfter (by rw [hSame]; exact hTotal) ?_
        (not_headerRefused_append hNone hRc)
      rw [hSame, hPrefx]
      exact hBytes
  | more hRc hOut hAfter hLen hSum =>
      rw [hOffer] at hOut
      refine .unread hAfter (by rw [hSum]; exact hLe) ?_
        (not_headerRefused_append hNone (by
          rw [hRc]
          exact nofun))
      rw [hSum, Prefx.prepared_of_len hLen]
      exact hOut
  | error hRc hOut hAfter hLen =>
      rw [hOffer] at hOut
      rcases hStart.error_magic (hFits _ hLe) hOut with
        ⟨hTen, hMagic, hRejects⟩
      rw [List.length_take] at hTen
      rw [prefix_take_iff (show 3 ≤ _ by omega)] at hMagic
      have hSum := gzipBytes_idx hOut
      rw [hStart.idx, List.length_take,
        Nat.min_eq_left hLe] at hSum
      refine .rejected hAfter (by rw [← hAfter.idx]; omega)
        hRejects hLen ?_ hMagic
        (headerRefused_append.mpr (Or.inr hRc))
      have hFold := foldl_behind_of_bytes hOut
      rw [hStart.idx, Nat.sub_zero, List.take_take,
        Nat.min_eq_left (by omega)] at hFold
      exact hFold
  | done hRc hOut =>
      rw [hOffer] at hOut
      exact .done hLe hOut
        (not_headerRefused_append hNone hRc)

/- At the header of another format it stays, byte by byte. -/
theorem rejected_step
    (hUntouched : Untouched s)
    (hTotal : s.totalIn ≤ x.length)
    (hRejects : Rejects s.prefx)
    (hLen : s.prefx.len ≠ 0)
    (hFold :
      (x.take s.prefx.idx).foldl Prefx.behind p₀ = s.prefx)
    (hMagic : ¬gzipMagic <+: x)
    (hRefused : HeaderRefused trace)
    (hStep : splitStep x s event s') :
    HeaderPhase x p₀ (trace ++ [event]) s' := by
  rcases hStep with ⟨hLe, hStep⟩
  have hOpen : s.prefx.headerState ≠ .headerDone := by
    rw [hRejects.state]
    exact nofun
  have hAfterRefused : HeaderRefused (trace ++ [event]) :=
    headerRefused_append.mpr (Or.inl hRefused)
  have hSame := Prefx.prepared_of_len hLen
  have hStay : Untouched s' → s'.prefx = s.prefx →
      HeaderPhase x p₀ (trace ++ [event]) s' := by
    intro hAfter hPrefx
    have hAt := hUntouched.idx
    have hAt' := hAfter.idx
    rw [hPrefx] at hAt'
    rw [← hPrefx] at hRejects hLen hFold
    exact .rejected hAfter (by omega) hRejects hLen hFold
      hMagic hAfterRefused
  cases hChunk :
      (bytesAt x).window s.totalIn event.call.availIn with
  | nil =>
      have hBytes :
          gzipBytes
              ((bytesAt x).window s.totalIn
                event.call.availIn) s.prefx.prepared =
            some (.needMoreData, s.prefx, []) := by
        rw [hChunk, hSame]
        rfl
      cases hUntouched.called hOpen hStep with
      | kept _ _ hAfter hPrefx _ => exact hStay hAfter hPrefx
      | more _ hOut hAfter _ _ =>
          rw [hBytes] at hOut
          exact hStay hAfter (Prod.mk.inj (Prod.mk.inj
            (Option.some.inj hOut)).2).1.symm
      | error _ hOut _ _ =>
          rw [hBytes] at hOut
          cases hOut
      | done _ hOut =>
          rw [hBytes] at hOut
          cases hOut
  | cons b l =>
      rcases hRejects.byte b l with ⟨hByte, hRejects'⟩
      have hBytes :
          gzipBytes
              ((bytesAt x).window s.totalIn
                event.call.availIn) s.prefx.prepared =
            some (.error, (s.prefx.collect b).next, l) := by
        rw [hChunk, hSame]
        exact hByte
      cases hUntouched.called hOpen hStep with
      | kept _ _ hAfter hPrefx _ => exact hStay hAfter hPrefx
      | more _ hOut _ _ _ =>
          rw [hBytes] at hOut
          cases hOut
      | error hRc hOut hAfter hLen' =>
          rw [hBytes] at hOut
          have hPrefx : s'.prefx = (s.prefx.collect b).next :=
            (Prod.mk.inj (Prod.mk.inj
              (Option.some.inj hOut)).2).1.symm
          have hOne : 1 ≤ event.call.availIn := by
            have hLength := congrArg List.length hChunk
            rw [length_window, List.length_cons] at hLength
            omega
          have hIdx : s'.prefx.idx = s.prefx.idx + 1 := by
            rw [hPrefx]
            exact congrArg (· + 1)
              (s.prefx.collect_keeps b).idx
          have hAt := hUntouched.idx
          refine .rejected hAfter (by rw [← hAfter.idx]; omega)
            (hPrefx ▸ hRejects') hLen' ?_ hMagic
            hAfterRefused
          have hFirst :
              (bytesAt x).window s.prefx.idx 1 = [b] := by
            have hTake := congrArg (List.take 1) hChunk
            rw [take_window, Nat.min_eq_left hOne, ← hAt]
              at hTake
            exact hTake
          have hFoldOne := foldl_behind_of_bytes hByte
          rw [← hPrefx, hIdx, Nat.add_sub_cancel_left]
            at hFoldOne
          rw [hIdx, take_window_bytesAt (by omega), hFirst,
            List.foldl_append, hFold]
          exact hFoldOne
      | done _ hOut =>
          rw [hBytes] at hOut
          cases hOut

theorem HeaderPhase.step
    (hStart : AtStart g p₀)
    (hFits : ∀ n ≤ x.length, HeaderFits g (x.take n))
    (hPhase : HeaderPhase x p₀ trace s)
    (hStep : splitStep x s event s') :
    HeaderPhase x p₀ (trace ++ [event]) s' := by
  cases hPhase with
  | unread hUntouched hTotal hBytes hNone =>
      exact unread_step hStart hFits hUntouched hTotal hBytes
        hNone hStep
  | rejected hUntouched hTotal hRejects hLen hFold hMagic
      hRefused =>
      exact rejected_step hUntouched hTotal hRejects hLen
        hFold hMagic hRefused hStep
  | @done m rest hM hBytes hNone =>
      rcases prefx_of_done (gzipBytes_ok hBytes) hStep.2 with
        ⟨hPrefx, hRc⟩
      rw [← hPrefx] at hBytes
      exact .done hM hBytes
        (not_headerRefused_append hNone hRc)

/- A stream at the start of a header. -/
theorem HeaderPhase.start
    (hUntouched : Untouched s)
    (hNone : s.totalIn = 0) :
    HeaderPhase x s.prefx.prepared [] s := by
  have hNoEvent : ¬HeaderRefused [] := by
    rintro ⟨event, hMem, -⟩
    cases hMem
  have hBytes :
      gzipBytes (x.take s.totalIn) s.prefx.prepared =
        some (.needMoreData, s.prefx.prepared, []) := by
    rw [hNone, List.take_zero, gzipBytes]
  have hLe : s.totalIn ≤ x.length := by
    rw [hNone]
    exact Nat.zero_le _
  exact .unread hUntouched hLe hBytes hNoEvent

theorem HeaderPhase.run
    {s₀ : InflStream}
    (hStart : AtStart g s₀.prefx.prepared)
    (hFits : ∀ n ≤ x.length, HeaderFits g (x.take n))
    (hUntouched : Untouched s₀)
    (hNone : s₀.totalIn = 0)
    (hRun : Run (splitStep x) s₀ trace s) :
    HeaderPhase x s₀.prefx.prepared trace s :=
  hRun.invariant (HeaderPhase x s₀.prefx.prepared)
    (.start hUntouched hNone)
    (fun _ _ _ _ hPhase hStep =>
      hPhase.step hStart hFits hStep)

/- The stream that was set up is at the start of a header. -/
theorem untouched_init
    {s₀ : InflStream}
    (hFormat : s₀.format = .gzip) :
    Untouched (inflateInitState s₀) := by
  have hStat : finalEob 0 = false := by decide
  exact ⟨hFormat, ⟨rfl, hStat⟩, rfl, rfl, rfl, fun _ => rfl⟩

theorem atStart_init
    {s₀ : InflStream}
    (hNone : s₀.prefx.gzipHead = none) :
    AtStart none (inflateInitState s₀).prefx.prepared :=
  ⟨rfl, nofun, rfl,
    congrArg (Option.map GzedcHeader.rooms) hNone⟩

end Phases

------------------------------------------------------------
-- What Each Phase Shows
------------------------------------------------------------

section Shows

variable {x : List UInt8} {g : Option GzedcHeader}
variable {p₀ : Prefx} {trace : List InflateEvent}
variable {s s' : InflStream} {event : InflateEvent}

/- The magic bytes begin every header. -/
theorem gzipHeaders_magic
    {count : UInt16 → Nat} {w : List UInt8}
    (hMem : w ∈ gzipHeaders count) :
    gzipMagic <+: w ∧ 10 ≤ w.length := by
  rcases hMem with ⟨flg, hMem⟩
  rcases flaggedHeaders_front hMem with ⟨hFront, hTen⟩
  exact ⟨(List.prefix_append gzipMagic [flg]).trans hFront,
    hTen⟩

/- The retained state only depends on the bytes taken. -/
theorem HeaderPhase.fold
    (hStart : AtStart g p₀)
    (hPhase : HeaderPhase x p₀ trace s) :
    (x.take s.prefx.idx).foldl Prefx.behind p₀ =
      s.prefx.prepared := by
  cases hPhase with
  | unread hUntouched _ hBytes _ =>
      have hFold := foldl_behind_of_bytes hBytes
      have hIdx : s.prefx.prepared.idx = s.prefx.idx := by
        unfold Prefx.prepared
        split
        · rename_i hLen
          exact (hUntouched.unprepared hLen).symm
        · rfl
      rw [hStart.idx, Nat.sub_zero, hIdx, ← hUntouched.idx,
        List.take_take, Nat.min_self] at hFold
      exact hFold
  | rejected _ _ _ hLen hFold _ _ =>
      rw [Prefx.prepared_of_len hLen]
      exact hFold
  | @done m rest hM hBytes _ =>
      have hFold := foldl_behind_of_bytes hBytes
      have hSum := gzipBytes_idx hBytes
      rw [hStart.idx, List.length_take,
        Nat.min_eq_left hM] at hSum
      rw [hStart.idx, Nat.sub_zero, List.take_take,
        Nat.min_eq_left (by omega)] at hFold
      rw [Prefx.prepared_of_len
        (by rw [gzipBytes_len hBytes]; exact hStart.len)]
      exact hFold

/- Where no empty extra field misleads it, it is right. -/
theorem HeaderPhase.parsed
    (hStart : AtStart none p₀)
    (hNo : NoEmptyExtra x)
    (hPhase : HeaderPhase x p₀ trace s) :
    HeaderParsed x trace s := by
  cases hPhase with
  | unread hUntouched hTotal hBytes hNone =>
      rcases hStart.more_none (headerFits_none _) hBytes with
        ⟨hAhead, hMagic⟩
      have hNever : ∀ n ≤ s.totalIn,
          x.take n ∉ rfcHeaders := by
        intro n hLe hMem
        refine hAhead ⟨x.take n, (hNo.take_iff n).mp hMem, ?_⟩
        rw [← Nat.min_eq_left hLe, ← List.take_take]
        exact List.take_prefix _ _
      rw [← hUntouched.idx] at hNever hTotal hBytes hMagic
      refine ⟨hTotal, ?_, fun n hLt => hNever n hLt.le, ?_⟩
      · refine iff_of_false ?_ (hNever _ (Nat.le_refl _))
        rw [← Prefx.headerState_prepared]
        exact (gzipBytes_more hStart.open hBytes).1
      · refine iff_of_false hNone ?_
        rintro ⟨hTen, hNot⟩
        rw [List.length_take, Nat.min_eq_left hTotal,
          prefix_take_iff (show 3 ≤ _ by omega)] at hMagic
        exact hNot (hMagic hTen)
  | rejected hUntouched hTotal hRejects _ _ hMagic hRefused =>
      have hNever : ∀ n, x.take n ∉ rfcHeaders := by
        intro n hMem
        exact hMagic ((gzipHeaders_magic hMem).1.trans
          (List.take_prefix n x))
      refine ⟨by rw [hUntouched.idx]; exact hTotal, ?_,
        fun n _ => hNever n,
        iff_of_true hRefused ⟨hRejects.ten, hMagic⟩⟩
      refine iff_of_false ?_ (hNever _)
      rw [hRejects.state]
      exact nofun
  | @done m rest hM hBytes hNone =>
      rcases hStart.ok_ahead (headerFits_none _) hBytes with
        ⟨w, hw, hEq⟩
      have hSum := gzipBytes_idx hBytes
      have hLength := congrArg List.length hEq
      rw [hStart.idx] at hSum
      rw [List.length_append] at hLength
      have hIdx : s.prefx.idx = w.length := by omega
      have hLe : w.length ≤ m := by
        rw [List.length_take, Nat.min_eq_left hM] at hLength
        omega
      have hW : x.take w.length = w := by
        have hTake := congrArg (List.take w.length) hEq
        rw [List.take_take, Nat.min_eq_left hLe,
          List.take_left] at hTake
        exact hTake
      have hMem : x.take w.length ∈ rfcHeaders :=
        (hNo.take_iff _).mpr (hW.symm ▸ hw)
      rw [← hIdx] at hMem hLe
      refine ⟨hLe.trans hM,
        iff_of_true (gzipBytes_ok hBytes) hMem, ?_, ?_⟩
      · intro n hLt hEarly
        have hInto : x.take n <+: x.take s.prefx.idx := by
          rw [← Nat.min_eq_left hLt.le, ← List.take_take]
          exact List.take_prefix _ _
        have hSame := congrArg List.length
          (gzipHeaders_prefixFree _ _ hEarly _ hMem hInto)
        rw [List.length_take, List.length_take] at hSame
        omega
      · refine iff_of_false hNone (fun hNot => hNot.2 ?_)
        exact (gzipHeaders_magic hMem).1.trans
          (List.take_prefix _ x)

end Shows

------------------------------------------------------------
-- The Exact Condition
------------------------------------------------------------

/- A call that offers a single byte. -/
def oneByte : InflateCall where
  availIn := 1
  availOut := 1
  flush := .noFlush
  env := ⟨fun _ _ => ⟨0, 0, 0, 0, 0, 0, 0, 0, 0, 0, 0, 0, 0, 0, 0, 0,
    fun _ => 0, fun _ => 0⟩⟩

/-
  Byte by byte a run gets as far as the parser wants more.
-/
theorem reading_run
    {x : List UInt8} {s₀ : InflStream} {n : Nat}
    (hStart : Untouched s₀)
    (hBegin : s₀.totalIn = 0)
    (hState : s₀.prefx.prepared.headerState ≠ .headerDone)
    (hLe : n ≤ x.length)
    (hAnswer : ∀ m ≤ n, ∃ q,
      gzipBytes (x.take m) s₀.prefx.prepared =
        some (.needMoreData, q, [])) :
    ∃ trace s,
      Run (splitStep x) s₀ trace s ∧
        Untouched s ∧ s.totalIn = n ∧
        gzipBytes (x.take n) s₀.prefx.prepared =
          some (.needMoreData, s.prefx.prepared, []) := by
  induction n with
  | zero =>
      exact ⟨[], s₀, .start, hStart, hBegin, rfl⟩
  | succ n ih =>
      rcases ih (by omega)
        (fun m hM => hAnswer m (by omega)) with
        ⟨trace, s, hRun, hUntouched, hTotal, hBytes⟩
      rcases hAnswer (n + 1) (Nat.le_refl _) with ⟨q, hQ⟩
      have hOpen : s.prefx.headerState ≠ .headerDone := by
        rw [← Prefx.headerState_prepared]
        exact (gzipBytes_more hState hBytes).1
      have hOffer :
          gzipBytes ((bytesAt x).window s.totalIn 1)
              s.prefx.prepared =
            some (.needMoreData, q, []) := by
        rw [take_window_bytesAt hLe, gzipBytes_append,
          hBytes] at hQ
        rw [hTotal]
        exact hQ
      have hWindow :
          gzipBytes
              ((bytesAt x).window s.totalIn oneByte.availIn)
              s.prefx.prepared =
            some (.needMoreData, q, []) :=
        hOffer
      rcases hUntouched.goOn hOpen hWindow with
        ⟨event, s', hCall, hStep⟩
      have hFits :
          s.totalIn + event.call.availIn ≤ x.length := by
        rw [hCall, hTotal]
        exact hLe
      have hNext := Run.next hRun ⟨hFits, hStep⟩
      cases hUntouched.called hOpen hStep with
      | kept hWhy _ _ _ _ =>
          rw [hCall] at hWhy
          rcases hWhy with hLarge | hFull
          · exact absurd hLarge (by decide)
          · cases hFull
      | more _ hOut hAfter hLen hSum =>
          rw [hCall] at hOut hSum
          refine ⟨_, s', hNext, hAfter, ?_, ?_⟩
          · rw [hSum, hTotal]
            rfl
          · change gzipBytes
              ((bytesAt x).window s.totalIn 1)
              s.prefx.prepared = _ at hOut
            rw [take_window_bytesAt hLe, gzipBytes_append,
              hBytes, Prefx.prepared_of_len hLen, ← hOut,
              hTotal]
            rfl
      | error _ hOut _ _ =>
          rw [hCall] at hOut
          change gzipBytes ((bytesAt x).window s.totalIn 1)
            s.prefx.prepared = _ at hOut
          rw [hOffer] at hOut
          cases hOut
      | done _ hOut =>
          rw [hCall] at hOut
          change gzipBytes ((bytesAt x).window s.totalIn 1)
            s.prefx.prepared = _ at hOut
          rw [hOffer] at hOut
          cases hOut

/- A header with a name. -/
def namedHeader : List UInt8 :=
  [0x1f, 0x8b, 0x08, 0x08, 0, 0, 0, 0, 0, 3, 0x61, 0]

/- A call that offers all of it. -/
def wholeHeader : InflateCall :=
  { oneByte with availIn := 12 }

end Zedc
