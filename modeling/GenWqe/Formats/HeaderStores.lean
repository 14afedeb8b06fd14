import GenWqe.Formats.HeaderSplits

/-
  What the GZIP header parser stores in a registered
  structure: no byte behind the size given for a buffer, and
  none where there is no buffer.

  Key definitions include:
    * `KeepsWithin`, `HeadWithin`

  Main results:
    * `storeHeaderByte_stores`
    * `HeaderPhase.within`
-/

namespace Zedc

open ByteMem

------------------------------------------------------------
-- Inside the Buffers
------------------------------------------------------------

/-
  The bytes of a buffer from `max` on are kept, and where
  there is no buffer, there is none.
-/
def BufferWithin
    (max : UInt32) (m m' : Option ByteMem) : Prop :=
  (m = none → m' = none) ∧
    ∀ bytes, m = some bytes →
      ∃ bytes', m' = some bytes' ∧
        ∀ i, max.toNat ≤ i → bytes' i = bytes i

/- Of a structure only what has room was changed. -/
structure KeepsWithin (g r : GzedcHeader) : Prop where
  extraMax : r.extraMax = g.extraMax
  extra : BufferWithin g.extraMax g.extra r.extra
  nameMax : r.nameMax = g.nameMax
  name : BufferWithin g.nameMax g.name r.name
  commMax : r.commMax = g.commMax
  comment : BufferWithin g.commMax g.comment r.comment

/- The same, if there is a structure. -/
def HeadWithin (h h' : Option GzedcHeader) : Prop :=
  ∀ r', h' = some r' → ∃ r, h = some r ∧ KeepsWithin r r'

section Within

variable {max : UInt32} {m m' m'' : Option ByteMem}

theorem BufferWithin.refl
    (max : UInt32) (m : Option ByteMem) :
    BufferWithin max m m :=
  ⟨id, fun bytes hSome => ⟨bytes, hSome, fun _ _ => rfl⟩⟩

theorem BufferWithin.trans
    (hFirst : BufferWithin max m m')
    (hNext : BufferWithin max m' m'') :
    BufferWithin max m m'' := by
  refine ⟨fun hNone => hNext.1 (hFirst.1 hNone), ?_⟩
  intro bytes hSome
  rcases hFirst.2 bytes hSome with ⟨bytes', hSome', hKeep⟩
  rcases hNext.2 bytes' hSome' with
    ⟨bytes'', hSome'', hKeep'⟩
  exact ⟨bytes'', hSome'', fun i hLe =>
    (hKeep' i hLe).trans (hKeep i hLe)⟩

/- A byte stored below `max`. -/
theorem BufferWithin.store
    {bytes : ByteMem} {i : Nat}
    (b : UInt8)
    (hSome : m = some bytes)
    (hLt : i < max.toNat) :
    BufferWithin max m (some (bytes.store i [b])) := by
  refine ⟨fun hNone => ?_, ?_⟩
  · rw [hNone] at hSome
    cases hSome
  · intro bytes' hSome'
    cases hSome.symm.trans hSome'
    refine ⟨_, rfl, fun j hLe => ?_⟩
    unfold ByteMem.store
    rw [if_neg]
    rintro ⟨_, hIn⟩
    rw [List.length_singleton] at hIn
    omega

theorem KeepsWithin.refl (g : GzedcHeader) :
    KeepsWithin g g :=
  ⟨rfl, .refl _ _, rfl, .refl _ _, rfl, .refl _ _⟩

theorem KeepsWithin.trans
    {g g' g'' : GzedcHeader}
    (hFirst : KeepsWithin g g')
    (hNext : KeepsWithin g' g'') :
    KeepsWithin g g'' := by
  have hExtra := hNext.extra
  have hName := hNext.name
  have hComment := hNext.comment
  rw [hFirst.extraMax] at hExtra
  rw [hFirst.nameMax] at hName
  rw [hFirst.commMax] at hComment
  exact ⟨hNext.extraMax.trans hFirst.extraMax,
    hFirst.extra.trans hExtra,
    hNext.nameMax.trans hFirst.nameMax,
    hFirst.name.trans hName,
    hNext.commMax.trans hFirst.commMax,
    hFirst.comment.trans hComment⟩

theorem HeadWithin.refl (h : Option GzedcHeader) :
    HeadWithin h h :=
  fun r' hSome => ⟨r', hSome, .refl r'⟩

theorem HeadWithin.trans
    {h h' h'' : Option GzedcHeader}
    (hFirst : HeadWithin h h')
    (hNext : HeadWithin h' h'') :
    HeadWithin h h'' := by
  intro r'' hSome
  rcases hNext r'' hSome with ⟨r', hSome', hKeep'⟩
  rcases hFirst r' hSome' with ⟨r, hSome'', hKeep⟩
  exact ⟨r, hSome'', hKeep.trans hKeep'⟩

/- Other fields of the structure are set. -/
theorem HeadWithin.map
    {f : GzedcHeader → GzedcHeader}
    (hKeep : ∀ r, KeepsWithin r (f r))
    (h : Option GzedcHeader) :
    HeadWithin h (h.map f) := by
  intro r' hSome
  rcases Option.map_eq_some_iff.mp hSome with ⟨r, hIs, rfl⟩
  exact ⟨r, hIs, hKeep r⟩

end Within

------------------------------------------------------------
-- One Byte
------------------------------------------------------------

section Byte

variable {b : UInt8} {p p' : Prefx}

/- A store puts a byte below the size, or does nothing. -/
theorem storeHeaderByte_stores
    {max : GzedcHeader → UInt32}
    {buf : GzedcHeader → Option ByteMem}
    {setBuf : ByteMem → GzedcHeader → GzedcHeader}
    {ok : Bool}
    (hKeep :
      ∀ r bytes i, buf r = some bytes →
        i < (max r).toNat →
          KeepsWithin r (setBuf (bytes.store i [b]) r))
    (hStore :
      storeHeaderByte max buf setBuf b p = some (ok, p')) :
    HeadWithin p.gzipHead p'.gzipHead := by
  unfold storeHeaderByte at hStore
  split at hStore
  · cases hStore
    exact .refl _
  · rename_i r hHead
    split at hStore
    · rename_i hLt
      split at hStore
      · cases hStore
      · rename_i bytes hBuf
        cases hStore
        have hBelow : p.gzipHeaderIdx < (max r).toNat := by
          have hMax := (max r).toNat_lt
          unfold asSigned at hLt
          split at hLt <;> omega
        intro r' hSome
        cases hSome
        exact ⟨r, hHead, hKeep r bytes _ hBuf hBelow⟩
    · cases hStore
      exact .refl _

/- The three buffers. -/
theorem storeExtra_stores
    {ok : Bool}
    (hStore : storeExtra b p = some (ok, p')) :
    HeadWithin p.gzipHead p'.gzipHead :=
  storeHeaderByte_stores
    (fun _ _ _ hBuf hLt =>
      ⟨rfl, .store b hBuf hLt, rfl, .refl _ _, rfl,
        .refl _ _⟩)
    hStore

/- The name is stored within the buffer of the caller. -/
theorem storeName_stores
    {ok : Bool}
    (hStore : storeName b p = some (ok, p')) :
    HeadWithin p.gzipHead p'.gzipHead :=
  storeHeaderByte_stores
    (fun _ _ _ hBuf hLt =>
      ⟨rfl, .refl _ _, rfl, .store b hBuf hLt, rfl,
        .refl _ _⟩)
    hStore

/- So is the comment. -/
theorem storeComment_stores
    {ok : Bool}
    (hStore : storeComment b p = some (ok, p')) :
    HeadWithin p.gzipHead p'.gzipHead :=
  storeHeaderByte_stores
    (fun _ _ _ hBuf hLt =>
      ⟨rfl, .refl _ _, rfl, .refl _ _, rfl,
        .store b hBuf hLt⟩)
    hStore

/- A step that stores a byte goes on or fails behind it. -/
theorem HdrStep.stored_within
    {result : Option (Bool × Prefx)}
    {more : Bool}
    {next : HeadState}
    {step : HdrStep}
    (hStore :
      ∀ ok p', result = some (ok, p') →
        HeadWithin p.gzipHead p'.gzipHead)
    (hStep :
      HdrStep.stored result more next p = some step) :
    HeadWithin p.gzipHead step.prefx.gzipHead := by
  unfold HdrStep.stored at hStep
  split at hStep
  · cases hStep
  · rename_i p₁
    cases hStep
    cases more <;> exact hStore true p₁ rfl
  · cases hStep
    exact .refl _

/- One state of the parser, by its cases. -/
theorem gzipHeaderStep_within
    {state : HeadState}
    {step : HdrStep}
    (hStep : gzipHeaderStep b p state = some step) :
    HeadWithin p.gzipHead step.prefx.gzipHead := by
  cases state with
  | headerStart =>
      simp only [gzipHeaderStep] at hStep
      split at hStep <;> cases hStep
      · exact .refl _
      · refine HeadWithin.map (fun r => ?_) p.gzipHead
        exact ⟨rfl, .refl _ _, rfl, .refl _ _, rfl,
          .refl _ _⟩
  | flagsCheckEmpty | flagsGetFhcrc1 | flagsGetFhcrc2
  | zlibAdler | headerDone | flagsGetExtraLen1 =>
      cases hStep
      exact .refl _
  | flagsGetExtraLen2 =>
      cases hStep
      refine HeadWithin.map (fun r => ?_) p.gzipHead
      exact ⟨rfl, .refl _ _, rfl, .refl _ _, rfl,
        .refl _ _⟩
  | flagsCheckExtra | flagsCheckFhcrc | flagsCheckFname
  | flagsCheckFcomment =>
      simp only [gzipHeaderStep] at hStep
      split at hStep <;> cases hStep <;> exact .refl _
  | flagsGetExtra =>
      simp only [gzipHeaderStep] at hStep
      split at hStep
      · exact HdrStep.stored_within
          (fun _ _ => storeExtra_stores) hStep
      · exact HdrStep.stored_within
          (p := { p with xlen := p.xlen - 1 })
          (fun _ _ => storeExtra_stores) hStep
  | flagsGetFname =>
      simp only [gzipHeaderStep] at hStep
      split at hStep
      · exact HdrStep.stored_within
          (fun _ _ => storeName_stores) hStep
      · exact HdrStep.stored_within
          (fun _ _ => storeName_stores) hStep
  | flagsGetFcomment =>
      simp only [gzipHeaderStep] at hStep
      split at hStep
      · exact HdrStep.stored_within
          (fun _ _ => storeComment_stores) hStep
      · exact HdrStep.stored_within
          (fun _ _ => storeComment_stores) hStep
  | flagsCheckFtext =>
      cases hStep
      change HeadWithin p.gzipHead
        (if p.bytes 3 &&& 0x01 ≠ 0 then _ else p).gzipHead
      split
      · refine HeadWithin.map (fun r => ?_) p.gzipHead
        exact ⟨rfl, .refl _ _, rfl, .refl _ _, rfl,
          .refl _ _⟩
      · exact .refl _

/- A byte may pass several states. -/
theorem gzipHeaderLoop_within
    {fuel : Nat}
    {state : HeadState}
    {rc : HdrRc}
    (hLoop :
      gzipHeaderLoop b fuel p state = some (rc, p')) :
    HeadWithin p.gzipHead p'.gzipHead := by
  have hEnd :
      ∀ (rc : HdrRc) (q : Prefx) (next : HeadState),
        HeadWithin q.gzipHead
          (gzipHeaderEnd rc q next).2.gzipHead := by
    intro rc q next
    unfold gzipHeaderEnd
    simp only
    split
    · refine HeadWithin.map (fun r => ?_) q.gzipHead
      exact ⟨rfl, .refl _ _, rfl, .refl _ _, rfl,
        .refl _ _⟩
    · exact .refl _
  induction fuel generalizing p state with
  | zero =>
      cases hLoop
      exact .refl _
  | succ fuel ih =>
      unfold gzipHeaderLoop at hLoop
      by_cases hDone : state = .headerDone
      · rw [if_pos hDone] at hLoop
        have hOut := Option.some.inj hLoop
        have hTo := hEnd .ok p .headerDone
        rw [hOut] at hTo
        exact hTo
      · rw [if_neg hDone] at hLoop
        cases hStep : gzipHeaderStep b p state with
        | none =>
            rw [hStep] at hLoop
            cases hLoop
        | some step =>
            rw [hStep] at hLoop
            have hTurn := gzipHeaderStep_within hStep
            cases step with
            | refuse p₁ =>
                cases hLoop
                exact hTurn
            | moreData p₁ next =>
                have hOut := Option.some.inj hLoop
                have hTo := hEnd .needMoreData p₁ next
                rw [hOut] at hTo
                exact hTurn.trans hTo
            | goOn p₁ next => exact hTurn.trans (ih hLoop)

/- A byte, whatever the parser answers. -/
theorem Prefx.behind_within (p : Prefx) (b : UInt8) :
    HeadWithin p.gzipHead (p.behind b).gzipHead := by
  have hCollect : (p.collect b).gzipHead = p.gzipHead := by
    unfold Prefx.collect
    split <;> rfl
  unfold Prefx.behind
  cases hParse : inflateRemGzipHeader b (p.collect b) with
  | none => exact .refl _
  | some out =>
      rcases out with ⟨rc, p₁⟩
      rw [← hCollect]
      change HeadWithin _ p₁.gzipHead
      unfold inflateRemGzipHeader at hParse
      split at hParse
      · cases hParse
        exact .refl _
      · have hLoop := gzipHeaderLoop_within hParse
        split at hLoop
        · exact hLoop
        · exact hLoop

/- Any input, byte by byte. -/
theorem foldl_behind_within (l : List UInt8) (p : Prefx) :
    HeadWithin p.gzipHead
      (l.foldl Prefx.behind p).gzipHead := by
  induction l generalizing p with
  | nil => exact .refl _
  | cons b l ih => exact (p.behind_within b).trans (ih _)

end Byte

/- In every run, of what was registered at its start. -/
theorem HeaderPhase.within
    {x : List UInt8}
    {g : Option GzedcHeader}
    {p₀ : Prefx}
    {trace : List InflateEvent}
    {s : InflStream}
    (hStart : AtStart g p₀)
    (hPhase : HeaderPhase x p₀ trace s) :
    HeadWithin p₀.gzipHead s.prefx.gzipHead := by
  have hPrepared :
      s.prefx.prepared.gzipHead = s.prefx.gzipHead := by
    unfold Prefx.prepared
    split <;> rfl
  rw [← hPrepared, ← hPhase.fold hStart]
  exact foldl_behind_within _ _

end Zedc
