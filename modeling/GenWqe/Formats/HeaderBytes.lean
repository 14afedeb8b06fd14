import GenWqe.Inflate.Header

/-
  The GZIP header parser as a function of the bytes alone:
  over how many calls they are spread makes no difference.

  Key definitions include:
    * `gzipBytes` and `gzipResume`
    * `feedHeader`

  Main results:
    * `gzipBytes_append`
    * `remHeaderLoop_gzip`
    * `feedHeader_ok`
-/

namespace Zedc

------------------------------------------------------------
-- Parsing Bytes
------------------------------------------------------------

/- The byte was parsed. -/
def Prefx.next (p : Prefx) : Prefx :=
  { p with idx := p.idx + 1 }

/-
  The parser on one byte after the other, until it answers;
  the last component is the input it leaves.
-/
def gzipBytes :
    List UInt8 → Prefx →
      Option (HdrRc × Prefx × List UInt8)
  | [], p => some (.needMoreData, p, [])
  | b :: rest, p =>
      match inflateRemGzipHeader b (p.collect b) with
      | none => none
      | some (.needMoreData, p') => gzipBytes rest p'.next
      | some (rc, p') => some (rc, p'.next, rest)

/- Parsing goes on behind a byte that was answered so. -/
def gzipResume
    (rest : List UInt8) :
    Option (HdrRc × Prefx) →
      Option (HdrRc × Prefx × List UInt8)
  | none => none
  | some (.needMoreData, p) => gzipBytes rest p.next
  | some (rc, p) => some (rc, p.next, rest)

theorem gzipBytes_cons
    (b : UInt8)
    (rest : List UInt8)
    (p : Prefx) :
    gzipBytes (b :: rest) p =
      gzipResume rest
        (inflateRemGzipHeader b (p.collect b)) := by
  rw [gzipBytes]
  rcases inflateRemGzipHeader b (p.collect b) with
    _ | ⟨rc, p'⟩
  · rfl
  · cases rc <;> rfl

/- The answer to the bytes `a`, and on with `b`. -/
def gzipThen
    (b : List UInt8) :
    Option (HdrRc × Prefx × List UInt8) →
      Option (HdrRc × Prefx × List UInt8)
  | none => none
  | some (.needMoreData, p, _) => gzipBytes b p
  | some (rc, p, rest) => some (rc, p, rest ++ b)

theorem gzipBytes_append
    (a b : List UInt8)
    (p : Prefx) :
    gzipBytes (a ++ b) p = gzipThen b (gzipBytes a p) := by
  induction a generalizing p with
  | nil => rfl
  | cons c a ih =>
      rw [List.cons_append, gzipBytes, gzipBytes]
      rcases inflateRemGzipHeader c (p.collect c) with
        _ | ⟨rc, p'⟩
      · rfl
      · cases rc with
        | needMoreData => exact ih p'.next
        | ok => rfl
        | zlibNeedDict => rfl
        | error => rfl

/- While more data is needed, the header is not done. -/
theorem gzipHeaderStep_more
    {b : UInt8}
    {p p' : Prefx}
    {state next : HeadState}
    (hStep :
      gzipHeaderStep b p state =
        some (.moreData p' next)) :
    next ≠ .headerDone := by
  have hStored :
      ∀ {result : Option (Bool × Prefx)} {more : Bool}
        {next' : HeadState} {q : Prefx},
        HdrStep.stored result more next' q =
            some (.moreData p' next) →
          next = next' := by
    intro result more next' q hStored
    unfold HdrStep.stored HdrStep.of at hStored
    split at hStored
    · exact nomatch hStored
    · cases more with
      | true =>
          cases hStored
          rfl
      | false => cases hStored
    · cases hStored
  cases state with
  | headerDone | zlibAdler | flagsCheckEmpty
  | flagsGetFhcrc2 | flagsCheckFtext => cases hStep
  | headerStart =>
      simp only [gzipHeaderStep] at hStep
      split at hStep <;> cases hStep
  | flagsCheckExtra | flagsCheckFname | flagsCheckFcomment
  | flagsCheckFhcrc =>
      simp only [gzipHeaderStep] at hStep
      split at hStep <;> cases hStep
      decide
  | flagsGetExtraLen1 | flagsGetExtraLen2
  | flagsGetFhcrc1 =>
      cases hStep
      decide
  | flagsGetExtra | flagsGetFname | flagsGetFcomment =>
      simp only [gzipHeaderStep] at hStep
      split at hStep <;>
        rw [hStored hStep] <;> decide

theorem gzipHeaderLoop_more
    {b : UInt8}
    {fuel : Nat}
    {p p' : Prefx}
    {state : HeadState}
    (hLoop :
      gzipHeaderLoop b fuel p state =
        some (.needMoreData, p')) :
    p'.headerState ≠ .headerDone := by
  induction fuel generalizing p state with
  | zero => cases hLoop
  | succ fuel ih =>
      unfold gzipHeaderLoop at hLoop
      by_cases hDone : state = .headerDone
      · rw [if_pos hDone] at hLoop
        cases hLoop
      · rw [if_neg hDone] at hLoop
        cases hStep : gzipHeaderStep b p state with
        | none =>
            rw [hStep] at hLoop
            cases hLoop
        | some step =>
            rw [hStep] at hLoop
            cases step with
            | refuse p₁ => cases hLoop
            | moreData p₁ next =>
                unfold gzipHeaderEnd at hLoop
                cases hLoop
                exact gzipHeaderStep_more hStep
            | goOn p₁ next => exact ih hLoop

theorem gzipBytes_more
    {l rest : List UInt8}
    {p p' : Prefx}
    (hOpen : p.headerState ≠ .headerDone)
    (hBytes :
      gzipBytes l p = some (.needMoreData, p', rest)) :
    p'.headerState ≠ .headerDone ∧ rest = [] := by
  induction l generalizing p with
  | nil =>
      cases hBytes
      exact ⟨hOpen, rfl⟩
  | cons b l ih =>
      rw [gzipBytes] at hBytes
      split at hBytes
      · cases hBytes
      · rename_i p₁ hParse
        refine ih ?_ hBytes
        unfold inflateRemGzipHeader at hParse
        split at hParse
        · cases hParse
          unfold Prefx.next Prefx.collect
          split <;> exact hOpen
        · have hMore := gzipHeaderLoop_more hParse
          exact hMore
      · rename_i rc p₁ hRc hParse
        cases hBytes
        exact absurd rfl hRc

theorem gzipBytes_ok
    {l rest : List UInt8}
    {p p' : Prefx}
    (hBytes : gzipBytes l p = some (.ok, p', rest)) :
    p'.headerState = .headerDone := by
  induction l generalizing p with
  | nil => cases hBytes
  | cons b l ih =>
      rw [gzipBytes] at hBytes
      split at hBytes
      · cases hBytes
      · exact ih hBytes
      · rename_i rc p₁ hRc hParse
        cases hBytes
        unfold inflateRemGzipHeader at hParse
        split at hParse
        · cases hParse
        · have hDone := gzipHeaderLoop_ok hParse
          exact hDone

------------------------------------------------------------
-- Feeding Calls
------------------------------------------------------------

/- The code that `inflate_format_rem_header` gives. -/
def HdrRc.rc : HdrRc → Rc
  | .ok => .ok
  | .needMoreData => .ok
  | .zlibNeedDict => .needDict
  | .error => .errGzipHdr

/- The stream behind bytes that were parsed. -/
def InflStream.parsed
    (s : InflStream)
    (p : Prefx)
    (rest : List UInt8) : InflStream :=
  { s with
    prefx := p
    nextIn := rest
    totalIn :=
      s.totalIn + (s.nextIn.length - rest.length) }

theorem length_rest_le
    {l rest : List UInt8}
    {p p' : Prefx} {rc : HdrRc}
    (hBytes : gzipBytes l p = some (rc, p', rest)) :
    rest.length ≤ l.length := by
  induction l generalizing p with
  | nil =>
      cases hBytes
      exact Nat.le_refl _
  | cons b l ih =>
      rw [gzipBytes] at hBytes
      rw [List.length_cons]
      split at hBytes
      · cases hBytes
      · have hLe := ih hBytes
        omega
      · cases hBytes
        omega

/- The loop of a call parses what the call offers. -/
theorem remHeaderLoop_gzip
    {s : InflStream}
    (hFormat : s.format = .gzip) :
    remHeaderLoop s.nextIn s =
      (gzipBytes s.nextIn s.prefx).map fun out =>
        (out.1.rc, s.parsed out.2.1 out.2.2) := by
  generalize hIn : s.nextIn = l
  induction l generalizing s with
  | nil =>
      unfold InflStream.parsed
      rw [remHeaderLoop, gzipBytes, hIn]
      simp [HdrRc.rc, ← hIn]
  | cons b l ih =>
      rw [remHeaderLoop, gzipBytes]
      unfold inflateRemHeaderByte
      rw [if_pos hFormat]
      cases hParse :
          inflateRemGzipHeader b (s.prefx.collect b) with
      | none => rfl
      | some out =>
          rcases out with ⟨rc, p⟩
          have hPass :
              ({ s with prefx := p } :
                  InflStream).passHeaderByte =
                s.parsed p.next l := by
            unfold InflStream.passHeaderByte
              InflStream.advance InflStream.parsed
              Prefx.next
            rw [hIn]
            simp
          cases rc with
          | ok =>
              simp only [hPass, Option.map_some]
              rfl
          | error =>
              simp only [hPass, Option.map_some]
              rfl
          | zlibNeedDict =>
              simp only [hPass, Option.map_some]
              rfl
          | needMoreData =>
              simp only [hPass]
              have hRest :=
                ih (s := s.parsed p.next l) hFormat rfl
              rw [hRest]
              cases hBytes : gzipBytes l p.next with
              | none =>
                  change Option.map _
                    (gzipBytes l p.next) = _
                  rw [hBytes]
                  rfl
              | some out =>
                  rcases out with ⟨rc, p', rest⟩
                  have hLe := length_rest_le hBytes
                  change Option.map _
                    (gzipBytes l p.next) = _
                  rw [hBytes]
                  unfold InflStream.parsed
                  simp only [Option.map_some, hIn,
                    List.length_cons]
                  congr 3
                  omega

/- One call: the flush value and the input it offers. -/
structure HeaderCall where
  flush : Flush
  chunk : List UInt8

/-
  Calls of `inflate_format_rem_header`, each with its chunk
  behind what is left, until the header is done or refused;
  the last component is the calls that are not needed.
-/
def feedHeader :
    List HeaderCall → InflStream →
      Option (Rc × InflStream × List HeaderCall)
  | [], s => some (.ok, s, [])
  | call :: calls, s =>
      match inflateFormatRemHeader call.flush
          { s with nextIn := s.nextIn ++ call.chunk } with
      | none => none
      | some (rc, s') =>
          if rc = .ok ∧
              s'.prefx.headerState ≠ .headerDone then
            feedHeader calls s'
          else some (rc, s', calls)

/- The input of a list of calls. -/
def callBytes (calls : List HeaderCall) : List UInt8 :=
  calls.flatMap HeaderCall.chunk

/- A call prepares the removal once. -/
def Prefx.prepared (p : Prefx) : Prefx :=
  if p.len = 0 then { p with idx := 0, len := 10 } else p

theorem prefx_remHeaderPrepare
    {s : InflStream}
    (hFormat : s.format = .gzip) :
    (remHeaderPrepare s).prefx = s.prefx.prepared := by
  unfold remHeaderPrepare Prefx.prepared
  rw [hFormat]
  split <;> rfl

/- One call, seen from its bytes. -/
theorem inflateFormatRemHeader_gzip
    {s : InflStream}
    (hFormat : s.format = .gzip)
    (flush : Flush)
    {rc : HdrRc} {p : Prefx} {rest : List UInt8}
    (hBytes :
      gzipBytes s.nextIn s.prefx.prepared =
        some (rc, p, rest)) :
    ∃ s',
      inflateFormatRemHeader flush s = some (rc.rc, s') ∧
        s'.prefx = p ∧ s'.nextIn = rest ∧
        s'.format = .gzip ∧
        s'.totalIn =
          s.totalIn + (s.nextIn.length - rest.length) := by
  have hIn : (remHeaderPrepare s).nextIn = s.nextIn := by
    unfold remHeaderPrepare
    split <;> rfl
  have hTotal :
      (remHeaderPrepare s).totalIn = s.totalIn := by
    unfold remHeaderPrepare
    split <;> rfl
  have hKeep : (remHeaderPrepare s).format = .gzip := by
    unfold remHeaderPrepare
    split <;> exact hFormat
  have hLoop := remHeaderLoop_gzip hKeep
  rw [hIn, prefx_remHeaderPrepare hFormat, hBytes,
    Option.map_some] at hLoop
  unfold inflateFormatRemHeader
  rw [if_neg (by rw [hFormat]; decide)]
  simp only [hLoop]
  have hParsed :
      ((remHeaderPrepare s).parsed p rest).totalIn =
        s.totalIn + (s.nextIn.length - rest.length) := by
    unfold InflStream.parsed
    rw [hIn, hTotal]
  split
  · exact ⟨_, rfl, rfl, rfl, hKeep, hParsed⟩
  · exact ⟨_, rfl, rfl, rfl, hKeep, hParsed⟩

theorem inflateFormatRemHeader_fault
    {s : InflStream}
    (hFormat : s.format = .gzip)
    (flush : Flush)
    (hBytes : gzipBytes s.nextIn s.prefx.prepared = none) :
    inflateFormatRemHeader flush s = none := by
  have hIn : (remHeaderPrepare s).nextIn = s.nextIn := by
    unfold remHeaderPrepare
    split <;> rfl
  have hKeep : (remHeaderPrepare s).format = .gzip := by
    unfold remHeaderPrepare
    split <;> exact hFormat
  have hLoop := remHeaderLoop_gzip hKeep
  rw [hIn, prefx_remHeaderPrepare hFormat, hBytes,
    Option.map_none] at hLoop
  unfold inflateFormatRemHeader
  rw [if_neg (by rw [hFormat]; decide)]
  simp only [hLoop]

theorem gzipBytes_len
    {l rest : List UInt8}
    {p p' : Prefx} {rc : HdrRc}
    (hBytes : gzipBytes l p = some (rc, p', rest)) :
    p'.len = p.len := by
  induction l generalizing p with
  | nil =>
      cases hBytes
      rfl
  | cons b l ih =>
      rw [gzipBytes] at hBytes
      split at hBytes
      · cases hBytes
      · rename_i p₁ hParse
        rw [ih hBytes]
        exact (inflateRemGzipHeader_keeps hParse).len.trans
          (Prefx.collect_keeps b p).len
      · rename_i rc' p₁ hRc hParse
        cases hBytes
        exact (inflateRemGzipHeader_keeps hParse).len.trans
          (Prefx.collect_keeps b p).len

theorem Prefx.len_prepared (p : Prefx) :
    p.prepared.len ≠ 0 := by
  unfold Prefx.prepared
  by_cases hZero : p.len = 0
  · rw [if_pos hZero]
    exact Nat.succ_ne_zero 9
  · rw [if_neg hZero]
    exact hZero

/-
  A header that the parser accepts as a whole is accepted
  over any calls, and they leave the same input.
-/
theorem feedHeader_ok
    {calls : List HeaderCall}
    {s : InflStream}
    (hFormat : s.format = .gzip)
    (hIn : s.nextIn = [])
    (hOpen : s.prefx.headerState ≠ .headerDone)
    {p : Prefx} {rest : List UInt8}
    (hBytes :
      gzipBytes (callBytes calls) s.prefx.prepared =
        some (.ok, p, rest)) :
    ∃ s' later,
      feedHeader calls s = some (.ok, s', later) ∧
        s'.prefx = p ∧
        s'.nextIn ++ callBytes later = rest ∧
        s'.totalIn =
          s.totalIn +
            ((callBytes calls).length - rest.length) := by
  induction calls generalizing s with
  | nil => cases hBytes
  | cons call calls ih =>
      have hCall :
          callBytes (call :: calls) =
            call.chunk ++ callBytes calls := rfl
      have hLe := length_rest_le hBytes
      rw [hCall, gzipBytes_append] at hBytes
      rw [hCall, List.length_append] at hLe ⊢
      cases hChunk :
          gzipBytes call.chunk s.prefx.prepared with
      | none =>
          rw [hChunk] at hBytes
          cases hBytes
      | some out =>
          rcases out with ⟨rc, p₁, rest₁⟩
          rw [hChunk] at hBytes
          have hOffer :
              gzipBytes (s.nextIn ++ call.chunk)
                s.prefx.prepared = some (rc, p₁, rest₁) := by
            rw [hIn]
            exact hChunk
          rcases inflateFormatRemHeader_gzip
            (s := { s with
              nextIn := s.nextIn ++ call.chunk })
            hFormat call.flush hOffer with
            ⟨s₁, hCallEq, hPrefx, hNext, hFormat₁, hTotal⟩
          change s₁.totalIn = s.totalIn +
            ((s.nextIn ++ call.chunk).length -
              rest₁.length) at hTotal
          rw [hIn, List.nil_append] at hTotal
          have hLe₁ := length_rest_le hChunk
          rw [feedHeader, hCallEq]
          cases rc with
          | zlibNeedDict => cases hBytes
          | error => cases hBytes
          | ok =>
              cases hBytes
              have hDone := gzipBytes_ok hChunk
              refine ⟨s₁, calls, ?_, hPrefx, ?_, ?_⟩
              · simp only
                rw [if_neg (by rw [hPrefx, hDone]; simp)]
                rfl
              · rw [hNext]
              · rw [hTotal, List.length_append]
                omega
          | needMoreData =>
              have hOpenP :
                  s.prefx.prepared.headerState ≠
                    .headerDone := by
                unfold Prefx.prepared
                split <;> exact hOpen
              rcases gzipBytes_more hOpenP hChunk with
                ⟨hOpen₁, rfl⟩
              have hLen := gzipBytes_len hChunk
              have hPrep : s₁.prefx.prepared = p₁ := by
                rw [hPrefx]
                unfold Prefx.prepared
                rw [if_neg (by
                  rw [hLen]
                  exact s.prefx.len_prepared)]
              rw [← hPrefx] at hOpen₁
              rcases ih hFormat₁ hNext hOpen₁
                (hPrep.symm ▸ hBytes) with
                ⟨s', later, hFeed, hEnd, hLeft, hSum⟩
              refine ⟨s', later, ?_, hEnd, hLeft, ?_⟩
              · simp only
                rw [if_pos ⟨rfl, hOpen₁⟩]
                exact hFeed
              · have hRest := length_rest_le hBytes
                rw [hSum, hTotal]
                simp only [List.length_nil] at *
                omega

/- A header done by one call is accepted by the parser. -/
theorem feedHeader_single
    {call : HeaderCall}
    {s s' : InflStream} {later : List HeaderCall}
    (hFormat : s.format = .gzip)
    (hIn : s.nextIn = [])
    (hOpen : s.prefx.headerState ≠ .headerDone)
    (hFeed : feedHeader [call] s = some (.ok, s', later))
    (hDone : s'.prefx.headerState = .headerDone) :
    ∃ rest,
      gzipBytes call.chunk s.prefx.prepared =
        some (.ok, s'.prefx, rest) := by
  have hOpenP : s.prefx.prepared.headerState ≠ .headerDone := by
    unfold Prefx.prepared
    split <;> exact hOpen
  rw [feedHeader] at hFeed
  cases hBytes : gzipBytes call.chunk s.prefx.prepared with
  | none =>
      have hNone :=
        inflateFormatRemHeader_fault
          (s := { s with nextIn := s.nextIn ++ call.chunk })
          hFormat call.flush (by
            rw [hIn]
            exact hBytes)
      rw [hNone] at hFeed
      cases hFeed
  | some out =>
      rcases out with ⟨rc, p, rest⟩
      rcases inflateFormatRemHeader_gzip
        (s := { s with nextIn := s.nextIn ++ call.chunk })
        hFormat call.flush (by
          rw [hIn]
          exact hBytes) with
        ⟨s₁, hCall, hPrefx, -⟩
      rw [hCall] at hFeed
      simp only at hFeed
      cases rc with
      | ok =>
          have hEnd := gzipBytes_ok hBytes
          rw [if_neg (by rw [hPrefx, hEnd]; simp)] at hFeed
          cases hFeed
          exact ⟨rest, by rw [hPrefx]⟩
      | needMoreData =>
          rcases gzipBytes_more hOpenP hBytes with
            ⟨hMore, -⟩
          rw [← hPrefx] at hMore
          rw [if_pos ⟨rfl, hMore⟩] at hFeed
          cases hFeed
          exact absurd hDone hMore
      | zlibNeedDict =>
          rw [if_neg (fun h => nomatch h.1)] at hFeed
          cases hFeed
      | error =>
          rw [if_neg (fun h => nomatch h.1)] at hFeed
          cases hFeed

end Zedc
