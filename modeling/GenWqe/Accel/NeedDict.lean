import GenWqe.Inflate.Decompress
import GenWqe.Card.Steps
import GenWqe.Capi.Open

/-
  The return code of an inflate request on its way from both
  kinds of cards through `accel_ddcb_execute` up to
  `zedc_inflate`, and what becomes of a missing dictionary.

  Key definitions include:
    * `genwqeCardExecute` and `capiDdcbExecute`
    * `Accelerator.ddcbExecute`
    * `EndsReported`

  Main results:
    * `genwqeCardExecute_code`
    * `inflateEnded_streamError`
    * `endsReported_iff`
-/

------------------------------------------------------------
-- The Layers
------------------------------------------------------------

namespace Accel

open Zedc
open Libcard (genwqeOk genwqeErrExecDdcb IoctlResult)
open Capi (ddcbOk ddcbErrInval storedCode)
open Capi.Cards (ddcbErrCard)

/- `DDCB_ERR_NOTIMPL`: function not implemented. -/
def ddcbErrNotimpl : Int := -415

/-
  `__genwqe_card_execute` on a handle for all cards or for
  one, with a number of commands to go and the ways out of
  its `ioctl`. No result: it waits for the next `ioctl`.
-/
def genwqeCardExecute
    (redundant : Bool) :
    Nat → List IoctlResult → Option Int
  | 0, _ => some genwqeOk
  | _ + 1, [] => none
  | left + 1, .done :: rest =>
      genwqeCardExecute redundant left rest
  | left + 1, .failed busy timeout :: rest =>
      if redundant then
        if timeout then some genwqeErrExecDdcb
        else genwqeCardExecute redundant (left + 1) rest
      else if busy then
        genwqeCardExecute redundant (left + 1) rest
      else
        some genwqeErrExecDdcb

/- What a card of either kind meets. -/
inductive Card where
  | genwqe
      (valid redundant : Bool)
      (ioctls : List IoctlResult)
  | capi
      (valid : Bool)
      (good : Bool)
      (complCode : Int)

/-
  `ddcb_execute` of a CAPI card: with a handle that it takes
  the code that `__ddcb_done_post` has stored.
-/
def capiDdcbExecute
    (valid good : Bool)
    (complCode : Int) : Int :=
  if valid then storedCode good complCode else ddcbErrInval

/-
  `ddcb_execute` of both kinds; a request of `zedc_inflate` is
  one command.
-/
def Card.ddcbExecute : Card → Option Int
  | .genwqe valid redundant ioctls =>
      if valid then genwqeCardExecute redundant 1 ioctls
      else some genwqeErrExecDdcb
  | .capi valid good complCode =>
      some (capiDdcbExecute valid good complCode)

/- The accelerator of a handle, if it was registered. -/
structure Accelerator where
  registered : Bool
  implemented : Bool
  card : Card

/- `accel_ddcb_execute` -/
def accelDdcbExecute (accel : Accelerator) : Option Int :=
  if accel.registered = false then some ddcbErrInval
  else if accel.implemented = false then some ddcbErrNotimpl
  else
    accel.card.ddcbExecute.map (fun cardRc =>
      if cardRc < 0 then ddcbErrCard else ddcbOk)

/- `zedc_execute_request` -/
def zedcExecuteRequest (accel : Accelerator) : Option Int :=
  accelDdcbExecute accel

/- All codes that `zedc_inflate` sees came this way. -/
def ThroughLayers (env : InflateEnv) : Prop :=
  ∀ i req, ∃ accel : Accelerator,
    zedcExecuteRequest accel = some (env.accel i req).rc

------------------------------------------------------------
-- Requests That Ended
------------------------------------------------------------

/- The device found that the dictionary is missing. -/
def MissingDict (resp : InflResp) : Prop :=
  resp.retc = ddcbRetcFault ∧ resp.attn = 0x801a

instance (resp : InflResp) : Decidable (MissingDict resp) :=
  inferInstanceAs (Decidable (_ ∧ _))

/- The responses to the requests of a call. -/
def responses
    (flush : Flush)
    (env : InflateEnv)
    (s : InflStream) : List InflResp :=
  match inflatePrepare flush s with
  | some (.inr s₁) =>
      let req := inflateRequest s₁
      if inflateSkipLastDict flush s₁ then
        let first :=
          env.accel 0 { req with
            saveDict := false, outDictLen := 0 }
        if first.failed ∨ finalEob first.inflStat then [first]
        else [first, env.accel 1 req]
      else
        [env.accel 0 req]
  | _ => []

/-
  A request that did not complete is reported: a missing
  dictionary as such, with its checksum, and any other end as
  an error of the stream.
-/
def EndsReported
    (flush : Flush)
    (env : InflateEnv)
    (s : InflStream) : Prop :=
  ∀ resp ∈ responses flush env s,
    resp.retc ≠ ddcbRetcComplete →
      ∃ ret, zedcInflate flush env s = some ret ∧
        if MissingDict resp then
          ret.rc = .needDict ∧
            ret.strm.adler32 = ret.strm.dictAdler32
        else
          ret.rc = .streamError

------------------------------------------------------------
-- The Codes
------------------------------------------------------------

/- `__genwqe_card_execute` knows one code for failures. -/
theorem genwqeCardExecute_code
    {redundant : Bool} {left : Nat}
    {ioctls : List IoctlResult} {rc : Int}
    (hExecute :
      genwqeCardExecute redundant left ioctls = some rc) :
    rc = genwqeOk ∨ rc = genwqeErrExecDdcb := by
  induction ioctls generalizing left with
  | nil =>
      cases left with
      | zero => exact Or.inl (Option.some.inj hExecute).symm
      | succ left => cases hExecute
  | cons io rest ih =>
      cases left with
      | zero => exact Or.inl (Option.some.inj hExecute).symm
      | succ left =>
          cases io with
          | done => exact ih hExecute
          | failed busy timeout =>
              rw [genwqeCardExecute] at hExecute
              split at hExecute
              · split at hExecute
                · exact Or.inr
                    (Option.some.inj hExecute).symm
                · exact ih hExecute
              · split at hExecute
                · exact ih hExecute
                · exact Or.inr
                    (Option.some.inj hExecute).symm

/- It returns what the library's step for `ioctl` answers. -/
theorem genwqeCardExecute_step
    {s s' : Libcard.Library} {exec : Libcard.Exec}
    {io : IoctlResult} {rest : List IoctlResult}
    {d : Libcard.CardDev} {rc : Int}
    (hDev : s.dev? exec.dev = some d)
    (hStep :
      Libcard.stepExecute s exec io =
        some (.returned rc, s')) :
    genwqeCardExecute
      (decide (d.cardNo = Libcard.genwqeCardRedundant))
      exec.left (io :: rest) = some rc := by
  cases io with
  | done =>
      unfold Libcard.stepExecute at hStep
      simp only [hDev] at hStep
      split at hStep
      · split at hStep
        · cases hStep
        · split at hStep <;> cases hStep
      · cases hStep
  | failed busy timeout =>
      unfold Libcard.stepExecute at hStep
      cases hLeft : exec.left with
      | zero => simp [hLeft] at hStep
      | succ left =>
          simp only [hLeft, hDev, Nat.add_one_ne_zero,
            if_false] at hStep
          rw [genwqeCardExecute]
          split at hStep
          · rename_i hMulti
            rw [if_pos (decide_eq_true hMulti)]
            cases timeout with
            | true =>
                rw [if_pos rfl] at hStep ⊢
                cases hStep
                rfl
            | false =>
                simp only [Bool.false_eq_true, if_false]
                  at hStep
                split at hStep <;> cases hStep
          · rename_i hSingle
            rw [if_neg (by simpa using hSingle)]
            cases busy with
            | true =>
                simp at hStep
            | false =>
                simp only [Bool.false_eq_true, if_false]
                  at hStep ⊢
                cases hStep
                rfl

/- No layer hands on that a DDCB could not be executed. -/
theorem zedcExecuteRequest_code
    {accel : Accelerator} {rc : Int}
    (hExecute : zedcExecuteRequest accel = some rc) :
    rc ≠ Zedc.ddcbErrExecDdcb := by
  unfold zedcExecuteRequest accelDdcbExecute at hExecute
  split at hExecute
  · cases hExecute
    decide
  · split at hExecute
    · cases hExecute
      decide
    · rcases Option.map_eq_some_iff.mp hExecute with
        ⟨cardRc, -, rfl⟩
      split <;> decide

------------------------------------------------------------
-- The End of a Call
------------------------------------------------------------

section Calls

variable {flush : Flush} {env : InflateEnv}

theorem failed_of_incomplete
    {resp : InflResp}
    (hRetc : resp.retc ≠ ddcbRetcComplete) :
    resp.failed = true := by
  unfold InflResp.failed
  rw [Bool.or_eq_true]
  exact Or.inr (bne_iff_ne.mpr hRetc)

/- Through the layers no dictionary is found missing. -/
theorem needDict_layers
    (hLayers : ThroughLayers env)
    (i : Nat)
    (req : InflReq) :
    (env.accel i req).needDict = false := by
  rcases hLayers i req with ⟨accel, hExecute⟩
  unfold InflResp.needDict
  have hCode := zedcExecuteRequest_code hExecute
  rw [beq_eq_false_iff_ne.mpr hCode]
  rfl

theorem inflateTry_failed
    (hLayers : ThroughLayers env)
    {i : Nat} {req req' : InflReq}
    (hRetc : (env.accel i req).retc ≠ ddcbRetcComplete) :
    inflateTry req' (env.accel i req) = .failed := by
  unfold inflateTry
  rw [needDict_layers hLayers, failed_of_incomplete hRetc]
  rfl

theorem inflateTry_done
    (hLayers : ThroughLayers env)
    {i : Nat} {req req' : InflReq}
    (hDone : (env.accel i req).failed = false) :
    inflateTry req' (env.accel i req) =
      .done ⟨req', env.accel i req⟩ := by
  unfold inflateTry
  rw [needDict_layers hLayers, hDone]
  rfl

/- A call that sees a request fail ends with an error. -/
theorem inflateEnded_of_failed
    {s s₁ : InflStream}
    (hPrepare : inflatePrepare flush s = some (.inr s₁))
    (hFailed : (inflateExecute flush env s₁).1 = .failed) :
    ∃ ret, zedcInflate flush env s = some ret ∧
      ret.rc = .streamError := by
  unfold zedcInflate
  rw [hPrepare]
  simp only
  unfold inflateSubmit
  generalize inflateExecute flush env s₁ = exec at *
  rcases exec with ⟨x, s₂⟩
  cases hFailed
  exact ⟨_, rfl, rfl⟩

/- Each request that did not complete is such an error. -/
theorem inflateEnded_streamError
    (hLayers : ThroughLayers env)
    {s : InflStream} {resp : InflResp}
    (hResp : resp ∈ responses flush env s)
    (hRetc : resp.retc ≠ ddcbRetcComplete) :
    ∃ ret, zedcInflate flush env s = some ret ∧
      ret.rc = .streamError := by
  unfold responses at hResp
  split at hResp
  swap
  · exact absurd hResp List.not_mem_nil
  rename_i s₁ hPrepare
  apply inflateEnded_of_failed hPrepare
  unfold inflateExecute
  simp only at hResp ⊢
  split at hResp
  · rename_i hSkip
    rw [if_pos hSkip]
    split at hResp
    · obtain rfl := List.mem_singleton.mp hResp
      rw [inflateTry_failed hLayers hRetc]
    · rename_i hBoth
      have hDone := Bool.eq_false_iff.mpr
        (fun h => hBoth (Or.inl h))
      have hEob := Bool.eq_false_iff.mpr
        (fun h => hBoth (Or.inr h))
      rcases List.mem_cons.mp hResp with rfl | hSecond
      · exact absurd (failed_of_incomplete hRetc)
          (Bool.eq_false_iff.mp hDone)
      · obtain rfl := List.mem_singleton.mp hSecond
        rw [inflateTry_done hLayers hDone]
        simp only [hEob, Bool.false_eq_true, if_false]
        exact inflateTry_failed hLayers hRetc
  · rename_i hSkip
    rw [if_neg hSkip]
    obtain rfl := List.mem_singleton.mp hResp
    exact inflateTry_failed hLayers hRetc

/- A fault is not a completion. -/
theorem MissingDict.incomplete
    {resp : InflResp}
    (hMissing : MissingDict resp) :
    resp.retc ≠ ddcbRetcComplete := by
  rw [hMissing.1]
  decide

/-
  Through the layers of both kinds of cards all ends of
  requests are reported as they should be, if and only if no
  device ever misses a dictionary.
-/
theorem endsReported_iff
    {s : InflStream}
    (hLayers : ThroughLayers env) :
    EndsReported flush env s ↔
      ∀ resp ∈ responses flush env s, ¬MissingDict resp := by
  constructor
  · intro hReported resp hResp hMissing
    have hRetc := hMissing.incomplete
    rcases hReported resp hResp hRetc with ⟨ret, hRet, hEnd⟩
    rw [if_pos hMissing] at hEnd
    rcases inflateEnded_streamError hLayers hResp hRetc with
      ⟨ret', hRet', hError⟩
    obtain rfl := Option.some.inj (hRet.symm.trans hRet')
    rw [hEnd.1] at hError
    cases hError
  · intro hNone resp hResp hRetc
    rcases inflateEnded_streamError hLayers hResp hRetc with
      ⟨ret, hRet, hError⟩
    refine ⟨ret, hRet, ?_⟩
    rw [if_neg (hNone resp hResp)]
    exact hError

end Calls

------------------------------------------------------------
-- A Missing Dictionary
------------------------------------------------------------

/- A response of a card with a code and RETC and ATTN. -/
def endedResp (rc : Int) (retc attn : UInt16) : InflResp :=
  { quietResp with
    rc := rc
    retc := retc
    attn := attn }

/- A CAPI card that has executed a DDCB. -/
def capiExecuted : Accelerator :=
  ⟨true, true, .capi true true ddcbOk⟩

/- A GenWQE card whose driver fails the `ioctl`. -/
def genwqeFailed : Accelerator :=
  ⟨true, true, .genwqe true false [.failed false false]⟩

/- What is left by a card with another fault. -/
def otherFault : InflateEnv :=
  ⟨fun _ _ => endedResp ddcbOk ddcbRetcFault 0x8015⟩

/- What is left by a card that misses a dictionary. -/
def missesDict : InflateEnv :=
  ⟨fun _ _ => endedResp ddcbErrCard ddcbRetcFault 0x801a⟩

/- A stream with a byte to decompress. -/
def oneByte : InflStream :=
  { inflateInitState (InflStream.zeroed .defl) with
    nextIn := [0]
    availOut := 16 }

/- Another fault of a CAPI card is reported. -/
theorem endsReported_otherFault :
    ThroughLayers otherFault ∧
      EndsReported .noFlush otherFault oneByte := by
  have hLayers : ThroughLayers otherFault :=
    fun _ _ => ⟨capiExecuted, rfl⟩
  refine ⟨hLayers, (endsReported_iff hLayers).mpr ?_⟩
  have hResponses :
      responses .noFlush otherFault oneByte =
        [endedResp ddcbOk ddcbRetcFault 0x8015] := rfl
  rw [hResponses]
  intro resp hMem
  obtain rfl := List.mem_singleton.mp hMem
  decide

/- A dictionary that a GenWQE card misses is not. -/
theorem endsReported_fails :
    ¬∀ flush env s, ThroughLayers env →
      EndsReported flush env s := by
  intro hAll
  have hReported :=
    hAll .noFlush missesDict oneByte
      (fun _ _ => ⟨genwqeFailed, rfl⟩)
  rcases hReported _ (List.mem_singleton.mpr rfl)
    (by decide) with ⟨ret, hRet, hEnd⟩
  rw [if_pos (by decide)] at hEnd
  have hError :
      zedcInflate .noFlush missesDict oneByte =
        some ⟨.streamError,
          (inflateExecute .noFlush missesDict
            { oneByte with inpDataOffs := 0 }).2, none⟩ :=
    rfl
  obtain rfl := Option.some.inj (hRet.symm.trans hError)
  cases hEnd.1

end Accel
