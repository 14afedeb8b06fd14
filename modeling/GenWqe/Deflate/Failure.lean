import GenWqe.Deflate.Emission

/-
  What a failed or refused deflate request leaves behind. The
  workspace page toggles before the request is executed and
  is never toggled back, so that no request, whatever comes of
  it, leaves the stream as it was.

  Key definitions include:
    * `DeflResp.rejected`
    * `RequestFails`
    * `Intact`

  Main results:
    * `deflateSubmit_wspPage`
    * `failed_execution_keeps`
    * `no_failed_request_intact`
-/

------------------------------------------------------------
-- Failing Requests
------------------------------------------------------------

namespace Zedc

/-
  One of the consistency checks on the response fails:
  `out_dict_offs`, `inp_processed`, `outp_returned`,
  `onumbits`, or left-over bytes with output space left.
-/
def DeflResp.rejected
    (resp : DeflResp) (s : DeflStream) : Prop :=
  resp.outDictOffs ≥ 16 ∨
  resp.inpProcessed.toNat > s.availIn ∨
  resp.outpReturned.toNat = 0 ∨
  resp.outpReturned.toNat > s.availOut ∨
  obitsInvalid s.dynHuffmanSupported
    resp.onumbits.toNat = true ∨
  (resp.outpReturned.toNat < s.availOut ∧
    resp.onumbits.toNat > 7)

/-
  The request is not completed with `DDCB_RETC_COMPLETE`, or
  its response is rejected: the response of the first
  execution, or of the repeated one where there is one.
-/
def RequestFails
    (flush : Flush) (env : DeflateEnv) (s : DeflStream) :
    Prop :=
  let req := deflateRequest flush s
  let first := env.accel 0 req
  let last :=
    if first.failed || first.absorbed s ||
        !deflateSkipLastDict flush s then first
    else
      env.accel 1
        { req with
          saveDict := true
          outDictLen := zedcDictLen }
  last.rc < 0 ∨ last.retc ≠ ddcbRetcComplete ∨
    last.rejected s

/-
  The counters, the checksums and the save-and-restore state
  are as they were.
-/
structure Intact (s s' : DeflStream) : Prop where
  nextIn : s'.nextIn = s.nextIn
  totalIn : s'.totalIn = s.totalIn
  nextOut : s'.nextOut = s.nextOut
  availOut : s'.availOut = s.availOut
  totalOut : s'.totalOut = s.totalOut
  crc32 : s'.crc32 = s.crc32
  adler32 : s'.adler32 = s.adler32
  dictLen : s'.dictLen = s.dictLen
  outDictOffs : s'.outDictOffs = s.outDictOffs
  wspPage : s'.wspPage = s.wspPage
  obyte : s'.obyte = s.obyte
  onumbits : s'.onumbits = s.onumbits
  outFifo : s'.outFifo.contents = s.outFifo.contents

------------------------------------------------------------
-- The Page
------------------------------------------------------------

theorem wspPage_deflateProcessResults
    (resp : DeflResp) (s : DeflStream) :
    (deflateProcessResults resp s).2.wspPage =
      s.wspPage := by
  unfold deflateProcessResults
  simp only
  split_ifs <;> rfl

/- Every submission leaves the page toggled. -/
theorem deflateSubmit_wspPage
    (flush : Flush)
    (env : DeflateEnv)
    (s : DeflStream) :
    (deflateSubmit flush env s).strm.wspPage =
      !s.wspPage := by
  have hPage :
      ∀ {found : Option DeflExchange} {s₁ : DeflStream},
        deflateExecute flush env s = (found, s₁) →
          s₁.wspPage = !s.wspPage := by
    intro found s₁ hExec
    rcases (deflateExecute_spec hExec).1 with ⟨dict, rfl⟩
    rfl
  have hOutcome := deflateSubmit_outcome flush env s
  generalize deflateSubmit flush env s = ret at *
  cases hOutcome with
  | failed hExec => exact hPage hExec
  | badOffset hExec _ => exact (hPage hExec :)
  | @refused ex s₁ s₂ rc hExec _ hResults _ =>
      have hKept := wspPage_deflateProcessResults ex.resp
        (deflateTakeAsv ex.resp s₁)
      rw [hResults] at hKept
      exact hKept.trans (hPage hExec :)
  | @accepted ex s₁ s₂ hExec _ hResults =>
      have hKept := wspPage_deflateProcessResults ex.resp
        (deflateTakeAsv ex.resp s₁)
      rw [hResults] at hKept
      have hFlush :
          (deflateFlush flush s₂).wspPage = s₂.wspPage :=
        (congrArg DeflStream.wspPage
          (inputSide_deflateFlush flush s₂) :)
      exact hFlush.trans (hKept.trans (hPage hExec :))

/-
  A request whose execution fails changes the page and, if it
  was to save the dictionary, the contents of the new page.
-/
theorem failed_execution_keeps
    {flush : Flush}
    {env : DeflateEnv}
    {s s₁ : DeflStream}
    (hExec : deflateExecute flush env s = (none, s₁)) :
    (deflateSubmit flush env s).rc = .streamError ∧
    ∃ dict,
      (deflateSubmit flush env s).strm =
        { s with wspPage := !s.wspPage, dict := dict } := by
  have hSubmit :
      deflateSubmit flush env s =
        ⟨.streamError, s₁, none⟩ := by
    unfold deflateSubmit
    rw [hExec]
  rcases (deflateExecute_spec hExec).1 with ⟨dict, hEq⟩
  rw [hSubmit]
  exact ⟨rfl, dict, hEq⟩

/-
  No failed or rejected request is answered with an error and
  a stream that is as it was before the request was built.
-/
theorem no_failed_request_intact
    (flush : Flush)
    (env : DeflateEnv)
    (s s₁ : DeflStream)
    (hPrepare : deflatePrepare flush env.now s = .inr s₁)
    (_hFails : RequestFails flush env s₁) :
    ¬ ((zedcDeflate flush env s).rc = .streamError ∧
        Intact s₁ (zedcDeflate flush env s).strm) := by
  rintro ⟨_, hIntact⟩
  have hPage := hIntact.wspPage
  have hToggled := deflateSubmit_wspPage flush env s₁
  unfold zedcDeflate at hPage
  rw [hPrepare] at hPage
  rw [hToggled] at hPage
  cases hOld : s₁.wspPage <;> simp [hOld] at hPage

------------------------------------------------------------
-- A Faulting Card
------------------------------------------------------------

/- A card that completes every DDCB with an error. -/
def faultResp (req : DeflReq) : DeflResp :=
  { echoResp req with
    rc := ddcbErrExecDdcb
    retc := ddcbRetcFault }

def faultEnv : DeflateEnv := ⟨fun _ req => faultResp req, 0⟩

/- A raw stream with one byte to compress. -/
def faultStream : DeflStream :=
  { deflateInitState (DeflStream.zeroed .defl true) with
    nextIn := [0x61]
    availOut := 64 }

theorem fault_not_intact :
    deflatePrepare .noFlush faultEnv.now faultStream =
        .inr faultStream ∧
    RequestFails .noFlush faultEnv faultStream ∧
    ¬ ((zedcDeflate .noFlush faultEnv faultStream).rc =
          .streamError ∧
        Intact faultStream
          (zedcDeflate .noFlush faultEnv
            faultStream).strm) := by
  refine ⟨rfl, Or.inl (by decide), ?_⟩
  rintro ⟨_, hIntact⟩
  have hPage := hIntact.wspPage
  revert hPage
  decide

/- A card that claims more output than there is space. -/
def overrunEnv : DeflateEnv :=
  ⟨fun _ req => { echoResp req with outpReturned := 65 }, 0⟩

theorem no_failed_request_intact_overrun :
    RequestFails .noFlush overrunEnv faultStream ∧
    ¬ ((zedcDeflate .noFlush overrunEnv faultStream).rc =
          .streamError ∧
        Intact faultStream
          (zedcDeflate .noFlush overrunEnv
            faultStream).strm) := by
  have hFails :
      RequestFails .noFlush overrunEnv faultStream := by
    right
    right
    unfold DeflResp.rejected
    decide
  exact ⟨hFails,
    no_failed_request_intact _ _ _ _ rfl hFails⟩

end Zedc
