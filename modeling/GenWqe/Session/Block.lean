import GenWqe.Session.Inflate

/-
  `Z_BLOCK` and the stop behind the header, which bit 0x80 of
  `data_type` stands for.

  Key definitions include:
    * `Progresses`
    * `StopsAtHeader`

  Main results:
    * `progresses_of_notStopped`
    * `block_progress_iff`
-/

------------------------------------------------------------
-- Progress
------------------------------------------------------------

namespace Session

open Zedc Hardware

/-
  From this state on a call behind the header that has input
  and output space submits a DDCB or reports an error.
-/
def Progresses (s : InflStream) : Prop :=
  ∀ args : InflateArgs,
    Behind (args.offer s) →
      args.nextIn ≠ [] →
        inflateSubmits args.flush (args.offer s) = true ∨
        ∃ ret,
          zedcInflate args.flush args.env (args.offer s) =
              some ret ∧
            ret.rc.IsNegative

/- The bit 0x80 is not left behind by a header. -/
def NotStopped (s : InflStream) : Prop :=
  s.prefx.headerState = .headerDone → s.dataType80 = false

theorem NotStopped.congr
    {s s' : InflStream}
    (hNot : NotStopped s)
    (hKept : HeaderKept s s') : NotStopped s' := by
  unfold NotStopped
  rw [hKept.prefx, hKept.dataType80]
  exact hNot

theorem progresses_of_notStopped
    {s : InflStream}
    (hNot : NotStopped s) : Progresses s := by
  intro args hBehind hSome
  by_cases hAccepted :
      (args.offer s).availIn ≤ zedcInflAvailInMax ∧
        (args.offer s).dict.obytesInDict ≤
          (args.offer s).dict.dictLen
  · left
    have hBit : (args.offer s).dataType80 = false :=
      hNot hBehind.headerState
    have hInput : (args.offer s).availIn ≠ 0 :=
      fun hNone => hSome (List.eq_nil_of_length_eq_zero hNone)
    unfold inflateSubmits
    rw [inflatePrepare_behind hBehind hAccepted.1
      hAccepted.2, hBit, if_neg Bool.false_ne_true,
      if_neg fun hBoth => hInput hBoth.1]
  · exact Or.inr (zedcInflate_refused hAccepted)

/- With the bit set behind the header nothing happens. -/
theorem not_progresses
    {s : InflStream}
    (hState : s.prefx.headerState = .headerDone)
    (hBit : s.dataType80 = true)
    (hQuiet : Quiet s) : ¬ Progresses s := by
  intro hProgress
  let args : InflateArgs :=
    ⟨[0], 1, .noFlush, ⟨fun _ _ => quietResp⟩⟩
  have hBehind : Behind (args.offer s) := by
    refine ⟨hState,
      ⟨hQuiet.data.eobSeen, hQuiet.data.inflStat⟩, ?_⟩
    show s.dict.obytesInDict < 1
    rw [hQuiet.drained]
    exact Nat.zero_lt_one
  have hFits :
      (args.offer s).dict.obytesInDict ≤
        (args.offer s).dict.dictLen := by
    show s.dict.obytesInDict ≤ s.dict.dictLen
    rw [hQuiet.drained]
    exact Nat.zero_le _
  have hOne : (args.offer s).availIn ≤ zedcInflAvailInMax := by
    show 1 ≤ zedcInflAvailInMax
    decide
  have hPrepare :=
    @inflatePrepare_behind .noFlush _ hBehind hOne hFits
  have hBit' : (args.offer s).dataType80 = true := hBit
  rw [hBit', if_pos rfl] at hPrepare
  rcases hProgress args hBehind (List.cons_ne_nil _ _) with
    hSubmits | ⟨ret, hCall, hNegative⟩
  · unfold inflateSubmits at hSubmits
    rw [hPrepare] at hSubmits
    cases hSubmits
  · unfold zedcInflate at hCall
    rw [hPrepare] at hCall
    have hOk : ¬ Rc.ok.IsNegative := by decide
    cases hCall
    exact hOk hNegative

------------------------------------------------------------
-- The Call That Stops the Stream
------------------------------------------------------------

/- The offered input holds the rest of the header. -/
def HeaderWhole (s : InflStream) : Prop :=
  ∃ s',
    remHeaderLoop s.nextIn
        (remHeaderPrepare { s with inpDataOffs := 0 }) =
      some (.ok, s') ∧
    s'.prefx.headerState = .headerDone

/-
  `Z_BLOCK` is given with the first input of a header, and the
  header is complete in it.
-/
structure StopsAtHeader
    (flush : Flush) (s : InflStream) : Prop where
  block : flush = .block
  format : s.format ≠ .defl
  unread : s.prefx.len = 0
  small : s.availIn ≤ zedcInflAvailInMax
  space : s.availOut ≠ 0
  whole : HeaderWhole s

/- The label is a call that stops the stream. -/
def InflateLabel.Stops (l : InflateLabel) : Prop :=
  ∃ args,
    l.op = .inflate args ∧
      StopsAtHeader args.flush (args.offer l.before)

/- A header that was not begun: nothing else was done. -/
def Unread (s : InflStream) : Prop :=
  s.format ≠ .defl →
    s.prefx.len = 0 →
      s.prefx.headerState = .headerStart ∧ Quiet s

theorem remHeaderLoop_kept
    {bs : List UInt8}
    {s s' : InflStream}
    {rc : Rc}
    (hBytes : s.nextIn = bs)
    (hLoop : remHeaderLoop bs s = some (rc, s')) :
    s'.format = s.format ∧
      s'.dataType80 = s.dataType80 ∧
      s'.prefx.len = s.prefx.len := by
  rcases (remHeaderLoop_spec hBytes hLoop).1 with ⟨k, hTaken⟩
  refine ⟨?_, ?_, hTaken.len⟩
  · rw [hTaken.strm]
    rfl
  · rw [hTaken.strm]
    rfl

theorem remHeaderPrepare_kept (s : InflStream) :
    (remHeaderPrepare s).format = s.format ∧
      (remHeaderPrepare s).nextIn = s.nextIn ∧
      (remHeaderPrepare s).dataType80 = false ∧
      (remHeaderPrepare s).prefx.len ≠ 0 := by
  unfold remHeaderPrepare
  split
  · refine ⟨rfl, rfl, rfl, ?_⟩
    simp only
    split <;> decide
  · rename_i hLen
    exact ⟨rfl, rfl, rfl, hLen⟩

/- What removing a header does to the bit. -/
theorem inflateFormatRemHeader_bit
    {flush : Flush}
    {s s' : InflStream}
    {rc : Rc}
    (hRemove :
      inflateFormatRemHeader flush s = some (rc, s')) :
    s' = s ∧ s.format = .defl ∨
    s.format ≠ .defl ∧ s'.format = s.format ∧
      s'.prefx.len ≠ 0 ∧
      (s'.dataType80 = true →
        flush = .block ∧ s.prefx.len = 0 ∧
          ∃ s₁,
            remHeaderLoop s.nextIn (remHeaderPrepare s) =
              some (.ok, s₁) ∧
            s₁.prefx = s'.prefx) := by
  unfold inflateFormatRemHeader at hRemove
  by_cases hDefl : s.format = .defl
  · rw [if_pos hDefl] at hRemove
    cases hRemove
    exact Or.inl ⟨rfl, hDefl⟩
  · right
    rw [if_neg hDefl] at hRemove
    simp only at hRemove
    rcases remHeaderPrepare_kept s with
      ⟨hFormat, hNextIn, hBit, hLen⟩
    cases hLoop :
        remHeaderLoop s.nextIn (remHeaderPrepare s) with
    | none =>
        rw [hLoop] at hRemove
        cases hRemove
    | some result =>
        rcases result with ⟨rc₁, s₁⟩
        rcases remHeaderLoop_kept hNextIn hLoop with
          ⟨hFormat₁, hBit₁, hLen₁⟩
        rw [hLoop] at hRemove
        simp only at hRemove
        split at hRemove
        · rename_i hBlock
          simp only [Bool.and_eq_true, beq_iff_eq] at hBlock
          rcases hBlock with ⟨⟨hUnread, hFlush⟩, hRc⟩
          subst hRc
          cases hRemove
          exact ⟨hDefl, hFormat₁.trans hFormat,
            fun hZero => hLen (hLen₁.symm.trans hZero),
            fun _ => ⟨hFlush, hUnread, s₁, rfl, rfl⟩⟩
        · cases hRemove
          refine ⟨hDefl, hFormat₁.trans hFormat,
            fun hZero => hLen (hLen₁.symm.trans hZero),
            fun hSet => ?_⟩
          rw [hBit₁, hBit] at hSet
          cases hSet

/- Where the header comes to, if it does not stop it. -/
theorem notStopped_header
    {flush : Flush}
    {s s₁ s₂ : InflStream}
    {n : Nat}
    {rc : Rc}
    (hUnread : Unread s)
    (hNot : NotStopped s)
    (hGoes : ¬ StopsAtHeader flush s)
    (hSmall : s.availIn ≤ zedcInflAvailInMax)
    (hFlushed : Flushed s s₁ n)
    (hSpace : s₁.availOut ≠ 0)
    (hHeader : HeaderDone flush s₁ s₂ rc) :
    NotStopped s₂ := by
  have hNot₁ : NotStopped s₁ :=
    hNot.congr (Flushed.kept hFlushed)
  unfold HeaderDone inflateHeader at hHeader
  split at hHeader
  swap
  · cases hHeader
    exact hNot₁
  rcases inflateFormatRemHeader_bit hHeader with
    ⟨rfl, _⟩ | ⟨hFormat, _, _, hBit⟩
  · exact hNot₁
  intro hDone
  by_contra hSet
  rw [Bool.not_eq_false] at hSet
  rcases hBit hSet with ⟨hBlock, hZero, s₃, hLoop, hPrefx⟩
  rw [(Flushed.kept hFlushed).format] at hFormat
  rw [(Flushed.kept hFlushed).prefx] at hZero
  have hSame :=
    Flushed.drained hFlushed (hUnread hFormat hZero).2.drained
  subst hSame
  refine hGoes ⟨hBlock, hFormat, hZero, hSmall, hSpace, s₃,
    hLoop, ?_⟩
  rw [hPrefx]
  exact hDone

/- A call that does not stop the stream leaves it going. -/
theorem notStopped_call
    {flush : Flush}
    {env : InflateEnv}
    {s : InflStream}
    {ret : InflRet}
    (hUnread : Unread s)
    (hNot : NotStopped s)
    (hGoes : ¬ StopsAtHeader flush s)
    (hCall : zedcInflate flush env s = some ret) :
    NotStopped ret.strm := by
  cases zedcInflate_header hCall with
  | kept hKept _ _ => exact hNot.congr hKept
  | returned hSmall hFlushed _ hSpace hHeader _ =>
      exact notStopped_header hUnread hNot hGoes hSmall
        hFlushed hSpace hHeader
  | submitted hSmall hFlushed _ hSpace hHeader hKept =>
      exact (notStopped_header hUnread hNot hGoes hSmall
        hFlushed hSpace hHeader).congr hKept

/- And one that does leaves it stopped. -/
theorem stopped_call
    {flush : Flush}
    {env : InflateEnv}
    {s : InflStream}
    {ret : InflRet}
    (hUnread : Unread s)
    (hStops : StopsAtHeader flush s)
    (hCall : zedcInflate flush env s = some ret) :
    ¬ Progresses ret.strm := by
  rcases hUnread hStops.format hStops.unread with
    ⟨hState, hQuiet⟩
  rcases hStops.whole with ⟨s', hLoop, hDone⟩
  have hHeader :
      inflateHeader flush { s with inpDataOffs := 0 } =
        some (.ok, { s' with dataType80 := true }) := by
    have hOpen :
        ({ s with inpDataOffs := 0 } :
            InflStream).prefx.headerState ≠ .headerDone := by
      simp only [hState]
      decide
    unfold inflateHeader inflateFormatRemHeader
    rw [if_pos hOpen, if_neg hStops.format]
    simp only [hStops.unread, hStops.block, beq_self_eq_true,
      Bool.and_true]
    rw [hLoop]
    rfl
  have hDrained : s.dict.obytesInDict = 0 := hQuiet.drained
  have hPrepare :
      inflatePrepare flush s =
        some (.inl (.ok, { s' with dataType80 := true })) := by
    rw [inflatePrepare_open hQuiet.data
      (by rw [hDrained]; exact Nat.pos_of_ne_zero hStops.space)
      hStops.small (by rw [hDrained]; exact Nat.zero_le _),
      giveOut_drained hDrained]
    unfold inflatePrefix
    rw [hHeader]
    rfl
  unfold zedcInflate at hCall
  rw [hPrepare] at hCall
  cases hCall
  have hNextIn :
      (remHeaderPrepare
        { s with inpDataOffs := 0 }).nextIn = s.nextIn :=
    (remHeaderPrepare_kept _).2.1
  have hStrm :
      s'.eobSeen = s.eobSeen ∧ s'.asv = s.asv ∧
        s'.dict = s.dict := by
    rcases (remHeaderLoop_spec hNextIn hLoop).1 with
      ⟨k, hTaken⟩
    rw [hTaken.strm]
    unfold remHeaderPrepare
    split <;> exact ⟨rfl, rfl, rfl⟩
  rcases hStrm with ⟨hEob, hAsv, hDict⟩
  refine not_progresses hDone rfl ⟨⟨?_, ?_⟩, ?_⟩
  · exact hEob.trans hQuiet.data.eobSeen
  · simp only [hAsv]
    exact hQuiet.data.inflStat
  · simp only [hDict]
    exact hQuiet.drained

------------------------------------------------------------
-- Runs
------------------------------------------------------------

/- The header is begun, if it was not removed before. -/
theorem begun_header
    {flush : Flush}
    {s s₁ s₂ : InflStream}
    {n : Nat}
    {rc : Rc}
    (hUnread : Unread s)
    (hFlushed : Flushed s s₁ n)
    (hHeader : HeaderDone flush s₁ s₂ rc)
    (hFormat : s₂.format ≠ .defl) :
    s₂.prefx.len ≠ 0 := by
  intro hZero
  have hFlat := Flushed.kept hFlushed
  unfold HeaderDone inflateHeader at hHeader
  split at hHeader
  · rcases inflateFormatRemHeader_bit hHeader with
      ⟨rfl, hDefl⟩ | ⟨_, _, hLen, _⟩
    · exact hFormat hDefl
    · exact hLen hZero
  · rename_i hDone
    cases hHeader
    rw [hFlat.format] at hFormat
    rw [hFlat.prefx] at hZero
    have hState := (hUnread hFormat hZero).1
    rw [hFlat.prefx, hState] at hDone
    exact hDone (by decide)

/- What every call keeps for a header not begun. -/
theorem unread_call
    {flush : Flush}
    {env : InflateEnv}
    {s : InflStream}
    {ret : InflRet}
    (hUnread : Unread s)
    (hCall : zedcInflate flush env s = some ret) :
    Unread ret.strm := by
  intro hFormat hZero
  cases zedcInflate_header hCall with
  | kept hKept _ hQuiet =>
      rw [hKept.format] at hFormat
      rw [hKept.prefx] at hZero ⊢
      rcases hUnread hFormat hZero with ⟨hState, hOld⟩
      exact ⟨hState, (hQuiet hOld).quiet⟩
  | returned _ hFlushed _ _ hHeader _ =>
      exact absurd hZero
        (begun_header hUnread hFlushed hHeader hFormat)
  | submitted _ hFlushed _ _ hHeader hKept =>
      rw [hKept.format] at hFormat
      rw [hKept.prefx] at hZero
      exact absurd hZero
        (begun_header hUnread hFlushed hHeader hFormat)

/- What holds of a stream that was just set up. -/
structure Started (s : InflStream) : Prop where
  unread : Unread s
  notStopped : NotStopped s

theorem started_initState (s : InflStream) :
    Started (inflateInitState s) :=
  ⟨fun _ _ => ⟨rfl, quiet_initState s⟩, nofun⟩

/- Only `zedc_inflate` can stop a stream. -/
theorem started_op
    {s s' : InflStream}
    {l : InflateLabel}
    (hStarted : Started s)
    (hStep : inflateOpStep s l s')
    (hGoes : ¬ l.Stops) : Started s' := by
  rcases hStep with ⟨rfl, hOp⟩
  rcases l with ⟨s, op, rc⟩
  cases op with
  | inflate args =>
      have hOffer : Unread (args.offer s) :=
        fun hFormat hZero =>
          have hOld := hStarted.unread hFormat hZero
          ⟨hOld.1,
            ⟨hOld.2.data.eobSeen, hOld.2.data.inflStat⟩,
            hOld.2.drained⟩
      rcases Option.map_eq_some_iff.mp hOp with
        ⟨ret, hCall, hRet⟩
      cases hRet
      exact ⟨unread_call hOffer hCall,
        notStopped_call hOffer hStarted.notStopped
          (fun hStops => hGoes ⟨args, rfl, hStops⟩) hCall⟩
  | setDictionary dictionary =>
      have hRet := congrArg Prod.snd (Option.some.inj hOp)
      simp only at hRet
      rw [← hRet]
      unfold zedcInflateSetDictionary
      split
      · exact hStarted
      · split
        · exact hStarted
        · exact ⟨fun hFormat hZero =>
            have hOld := hStarted.unread hFormat hZero
            ⟨hOld.1,
              ⟨hOld.2.data.eobSeen, hOld.2.data.inflStat⟩,
              hOld.2.drained⟩, hStarted.notStopped⟩
  | getHeader head =>
      cases hOp
      exact ⟨fun hFormat hZero =>
        have hOld := hStarted.unread hFormat hZero
        ⟨hOld.1,
          ⟨hOld.2.data.eobSeen, hOld.2.data.inflStat⟩,
          hOld.2.drained⟩, hStarted.notStopped⟩
  | readPending len =>
      simp only [InflateOp.run] at hOp
      cases hRead : zedcReadPendingOutput len s with
      | none =>
          rw [hRead] at hOp
          cases hOp
          exact hStarted
      | some result =>
          rw [hRead] at hOp
          cases hOp
          unfold zedcReadPendingOutput at hRead
          split at hRead
          · cases hRead
            exact hStarted
          · split at hRead
            · cases hRead
            · rename_i hSome _
              cases hRead
              exact ⟨fun hFormat hZero =>
                absurd (hStarted.unread hFormat
                  hZero).2.drained hSome,
                hStarted.notStopped⟩
  | reset windowBits =>
      have hRet := congrArg Prod.snd (Option.some.inj hOp)
      simp only at hRet
      rw [← hRet]
      unfold zedcInflateReset
      split
      · exact started_initState s
      · have hQuiet := quiet_initState s
        exact ⟨fun _ _ => ⟨rfl, ⟨hQuiet.data.eobSeen,
          hQuiet.data.inflStat⟩, hQuiet.drained⟩, nofun⟩

/-
  Along a run every call makes progress, just where no call of
  the run stops the stream at its header.
-/
theorem block_progress_iff
    {cfg : InflateConfig}
    {format : Format}
    {trace : List InflateLabel}
    {s : InflStream}
    (hRun : InflateRun cfg format trace s) :
    ((∀ l ∈ trace, Progresses l.before) ∧ Progresses s) ↔
      ∀ l ∈ trace, ¬ l.Stops := by
  have hGoing :
      ∀ {trace s},
        InflateRun cfg format trace s →
          (∀ l ∈ trace, ¬ l.Stops) → Started s := by
    intro trace s hRun hGoes
    exact hRun.invariant_of_labels (fun _ s => Started s)
      (fun l => ¬ l.Stops) (started_initState _)
      (fun _ _ _ _ hGoes hStarted hStep =>
        started_op hStarted hStep hGoes) hGoes
  induction hRun with
  | start =>
      refine iff_of_true ⟨by simp, ?_⟩ (by simp)
      exact progresses_of_notStopped
        (started_initState _).notStopped
  | @next trace s s' l hPast hStep ih =>
      constructor
      · rintro ⟨hAll, hLast⟩
        have hBefore : l.before = s := hStep.1
        have hPastGoes :=
          ih.mp
            ⟨fun l hMem =>
              hAll l (List.mem_append_left _ hMem),
            hBefore ▸ hAll l (by simp)⟩
        intro l' hMem hStops
        rcases List.mem_append.mp hMem with hOld | hNew
        · exact hPastGoes l' hOld hStops
        · rw [List.mem_singleton.mp hNew] at hStops
          rcases hStops with ⟨args, hArgs, hStops⟩
          have hUnread := (hGoing hPast hPastGoes).unread
          have hOffer : Unread (args.offer s) :=
            fun hFormat hZero =>
              have hOld := hUnread hFormat hZero
              ⟨hOld.1,
                ⟨hOld.2.data.eobSeen,
                  hOld.2.data.inflStat⟩,
                hOld.2.drained⟩
          have hOp := hStep.2
          rw [hArgs] at hOp
          rcases Option.map_eq_some_iff.mp hOp with
            ⟨ret, hCall, hRet⟩
          have hStrm : ret.strm = s' := congrArg Prod.snd hRet
          subst hStrm
          rw [hBefore] at hStops
          exact stopped_call hOffer hStops hCall hLast
      · intro hGoes
        have hPastGoes :
            ∀ l ∈ trace, ¬ l.Stops :=
          fun l hMem => hGoes l (List.mem_append_left _ hMem)
        have hOld := ih.mpr hPastGoes
        have hStarted :=
          hGoing (Run.next hPast hStep) hGoes
        refine ⟨fun l' hMem => ?_,
          progresses_of_notStopped hStarted.notStopped⟩
        rcases List.mem_append.mp hMem with hOldMem | hNew
        · exact hOld.1 l' hOldMem
        · rw [List.mem_singleton.mp hNew, hStep.1]
          exact hOld.2

/- The first call, with a whole ZLIB header. -/
def headerCall (flush : Flush) : InflateArgs :=
  ⟨[0x78, 0x9c], 1, flush, ⟨fun _ _ => quietResp⟩⟩

/- A ZLIB stream that was just set up. -/
def zlibInflate : InflStream :=
  zedcInflateInit2 plainConfig .zlib

/- Behind that call. -/
def behindHeader (flush : Flush) : InflStream :=
  (((InflateOp.inflate (headerCall flush)).run
    zlibInflate).getD (.errno, zlibInflate)).2

/- The label of that call. -/
def headerLabel (flush : Flush) : InflateLabel :=
  ⟨zlibInflate, .inflate (headerCall flush), .ok⟩

theorem run_headerCall
    (flush : Flush)
    (hFlush : flush = .block ∨ flush = .noFlush) :
    InflateRun plainConfig .zlib [headerLabel flush]
      (behindHeader flush) := by
  refine Run.next Run.start ⟨rfl, ?_⟩
  rcases hFlush with rfl | rfl <;> rfl

/- With `Z_BLOCK` no later call gets anywhere. -/
theorem block_stuck :
    InflateRun plainConfig .zlib [headerLabel .block]
        (behindHeader .block) ∧
      ¬ Progresses (behindHeader .block) := by
  refine ⟨run_headerCall _ (Or.inl rfl), ?_⟩
  exact not_progresses rfl rfl ⟨⟨rfl, by decide⟩, rfl⟩

theorem block_progress_noFlush :
    Progresses zlibInflate ∧
      Progresses (behindHeader .noFlush) := by
  have hGoes :
      ∀ l ∈ [headerLabel .noFlush], ¬ l.Stops := by
    intro l hMem
    rw [List.mem_singleton.mp hMem]
    rintro ⟨args, hArgs, hStops⟩
    cases hArgs
    exact absurd hStops.block (by decide)
  rcases (block_progress_iff
    (run_headerCall .noFlush (Or.inr rfl))).mpr hGoes with
    ⟨hAll, hLast⟩
  exact ⟨hAll _ (List.mem_singleton.mpr rfl), hLast⟩

end Session
