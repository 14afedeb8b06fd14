import GenWqe.Zedc.Codes

/-
  The DDCB queue of one CAPI card context: the ring of DDCBs
  that the card reads, the wait queue beside it, and the
  sections that run with the lock of the context held.

  Key definitions include:
    * `Ddcb`, `DdcbCmd` and `TxWaitq`
    * `DevCtx` and `afuOpen`
    * `cmd2Ddcb` and `ddcb2Cmd`
    * `ddcbExecuteSection`
    * `ddcbDonePost`
-/

namespace Capi

------------------------------------------------------------
-- Completion Codes
------------------------------------------------------------

/- `DDCB_OK`. -/
def ddcbOk : Int := 0

/- `DDCB_ERR_INVAL`: illegal parameters. -/
def ddcbErrInval : Int := -405

/- `DDCB_ERR_EXEC_DDCB`: DDCB execution failed. -/
def ddcbErrExecDdcb : Int := -411

/- `DDCB_ERR_IRQTIMEOUT`: no interrupt within the time. -/
def ddcbErrIrqtimeout : Int := -418

/- `DDCB_ERR_EVENTFAIL`: an error event of the AFU. -/
def ddcbErrEventfail : Int := -419

/- `DDCB_ERR_SELECTFAIL`: waiting for the card failed. -/
def ddcbErrSelectfail : Int := -420

/- `NUM_DDCBS`, which `ddcb_num` is set to. -/
def numDdcbs : Nat := 4

------------------------------------------------------------
-- Commands and DDCBs
------------------------------------------------------------

/-
  `struct ddcb_cmd`: what the caller asks for and where the
  results go. The chain of commands is kept apart.
-/
structure DdcbCmd where
  acfunc : UInt8
  cmd : UInt8
  asivLength : UInt8
  asvLength : UInt8
  cmdopts : UInt16
  retc : UInt16
  attn : UInt16
  vcrc : UInt16
  progress : UInt32
  dequeTs : UInt64
  cmpltTs : UInt64
  asv : List UInt8
  ats : UInt64
  asiv : List UInt8
  deriving DecidableEq, Repr

/- What the card writes into a DDCB. -/
structure DdcbResult where
  asv : List UInt8
  rsvdC0 : UInt16
  vcrc : UInt16
  dequeTs : UInt64
  retc : UInt16
  attn : UInt16
  progress : UInt32
  cmpltTs : UInt64
  deriving DecidableEq, Repr

/-
  `ddcb_t` of the ring. The fields hold the numbers that the
  big endian fields of the source stand for.
-/
structure Ddcb where
  icrcHsiShi : UInt32
  pre : UInt8
  seqnum : UInt16
  acfunc : UInt8
  cmd : UInt8
  cmdopts : UInt16
  psp : UInt8
  rsvd0e : UInt16
  ats : UInt64
  asiv : List UInt8
  result : DdcbResult
  deriving DecidableEq, Repr

/- `DDCB_PRESET_PRE`. -/
def ddcbPresetPre : UInt8 := 0x80

/- `DDCB_INTR_BE32`: raise an interrupt on completion. -/
def ddcbIntr : UInt32 := 4

/-
  `cmd_2_ddcb`: fill a slot from a command. Of the fields
  that the card writes only the return code is cleared.
-/
def cmd2Ddcb
    (pddcb : Ddcb)
    (cmd : DdcbCmd)
    (seqnum : UInt16)
    (useIrq : Bool) : Ddcb :=
  { icrcHsiShi := if useIrq then ddcbIntr else 0
    pre := ddcbPresetPre
    seqnum := seqnum
    acfunc := cmd.acfunc
    cmd := cmd.cmd
    cmdopts := cmd.cmdopts
    psp := (cmd.asivLength / 8) <<< 4 ||| cmd.asvLength / 8
    rsvd0e := seqnum
    ats := cmd.ats
    asiv := cmd.asiv
    result := { pddcb.result with retc := 0 } }

/-
  `ddcb_2_cmd`: copy the results of a slot to its command.
  The flag is `true` if the sequence number came back.
-/
def ddcb2Cmd
    (ddcb : Ddcb)
    (cmd : DdcbCmd) : Bool × DdcbCmd :=
  let length := cmd.asvLength.toNat
  (decide (ddcb.rsvd0e = ddcb.result.rsvdC0),
    { cmd with
      asv := ddcb.result.asv.take length ++
        cmd.asv.drop length
      vcrc := ddcb.result.vcrc
      dequeTs := ddcb.result.dequeTs
      cmpltTs := ddcb.result.cmpltTs
      attn := ddcb.result.attn
      progress := ddcb.result.progress
      retc := ddcb.result.retc })

------------------------------------------------------------
-- The Card Context
------------------------------------------------------------

/- `enum waitq_status`. -/
inductive WaitqStatus where
  | ddcbFree
  | ddcbIn
  | ddcbOut
  | ddcbErr
  deriving DecidableEq, Repr

/-
  `struct tx_waitq`, one entry beside each DDCB; `H` is the
  type of the handles. Commands are told by their address.
-/
structure TxWaitq (H : Type) where
  status : WaitqStatus
  cmd : Option Nat
  ttx : Option H
  seqnum : UInt16
  threadWait : Bool
  qInTime : UInt64

/- What the queue uses of `struct dev_ctx`. -/
structure DevCtx (H : Type) where
  ddcb : Nat → Ddcb
  waitq : Nat → TxWaitq H
  ddcbSeqnum : UInt16
  ddcbOut : Nat
  ddcbIn : Nat
  freeSem : Nat
  polling : Bool
  tout : Int

/- What the queue uses of a handle, `struct ttxs`. -/
structure Ttxs where
  complCode : Int
  waitSem : Nat
  deriving DecidableEq, Repr

/- The memory that callers and the done thread share. -/
structure Driver (H : Type) where
  ctx : DevCtx H
  ttxs : H → Ttxs
  cmds : Nat → DdcbCmd

/- `__setup_waitq`. -/
def setupWaitq
    {H : Type}
    (waitq : Nat → TxWaitq H) : Nat → TxWaitq H :=
  fun i =>
    if i < numDdcbs then
      { waitq i with
        status := .ddcbFree
        cmd := none
        ttx := none
        threadWait := false }
    else
      waitq i

/- The ring setup of `__afu_open`. -/
def afuOpen {H : Type} (ctx : DevCtx H) : DevCtx H :=
  { ctx with
    ddcbSeqnum := 0xf00d
    ddcbIn := 0
    ddcbOut := 0
    freeSem := numDdcbs
    waitq := setupWaitq ctx.waitq }

------------------------------------------------------------
-- Filling a Slot
------------------------------------------------------------

section Sections

variable {H : Type}

/- The wait queue entry for the command `myCmd` of `ttx`. -/
def TxWaitq.fill
    (txq : TxWaitq H)
    (ttx : H)
    (myCmd : Nat)
    (seq : UInt16)
    (now : UInt64)
    (last : Bool) : TxWaitq H :=
  { status := .ddcbIn
    cmd := some myCmd
    ttx := some ttx
    seqnum := seq
    qInTime := now
    threadWait := if last then true else txq.threadWait }

/-
  The section of `__ddcb_execute_multi` under the lock: put
  `myCmd` into the slot at `ddcb_in`; `last` says that no
  command of the chain follows.
-/
def ddcbExecuteSection
    (ctx : DevCtx H)
    (ttx : H)
    (myCmd : Nat)
    (cmd : DdcbCmd)
    (last : Bool)
    (now : UInt64) : DevCtx H :=
  let idx := ctx.ddcbIn
  let seq := ctx.ddcbSeqnum
  { ctx with
    waitq := Function.update ctx.waitq idx
      ((ctx.waitq idx).fill ttx myCmd seq now last)
    ddcbSeqnum := seq + 1
    ddcbIn := (idx + 1) % numDdcbs
    ddcb := Function.update ctx.ddcb idx
      (cmd2Ddcb (ctx.ddcb idx) cmd seq (!ctx.polling)) }

------------------------------------------------------------
-- Completing a Slot
------------------------------------------------------------

/- A command in the queue, with the number it was given. -/
structure Job (H : Type) where
  ttx : H
  cmd : Nat
  seqnum : UInt16
  deriving DecidableEq, Repr

/-
  What one completion did: the code handed to
  `__ddcb_done_post`, the number and the result found in the
  slot, the code stored for the caller, and whether the caller
  was posted.
-/
structure Completion (H : Type) where
  job : Job H
  passed : Int
  rsvd0e : UInt16
  result : DdcbResult
  complCode : Int
  posted : Bool
  deriving DecidableEq, Repr

/- The number that the card has written into the slot. -/
def Completion.rsvdC0 {H : Type} (c : Completion H) : UInt16 :=
  c.result.rsvdC0

/-
  The two ways out of `__ddcb_done_post` that leave the slot
  alone, and the completion of the slot.
-/
inductive PostResult (H : Type) where
  | stop
  | cont
  | completed (completion : Completion H)
  deriving DecidableEq, Repr

/- The value returned: go on with the next slot. -/
def PostResult.again : PostResult H → Bool
  | .stop => false
  | .cont => true
  | .completed _ => true

/- `(int)(get_msec() - txq->q_in_time)`. -/
def elapsedTime (now qInTime : UInt64) : Int :=
  (now - qInTime).toUInt32.toInt32.toInt

/-
  The code stored for the caller: the branch is taken only
  if `compl_code` is an error already.
-/
def storedCode (good : Bool) (complCode : Int) : Int :=
  if good = false then
    if complCode ≠ ddcbOk then ddcbErrExecDdcb
    else complCode
  else
    complCode

variable [DecidableEq H]

/- Store the code, and post the caller if it waits. -/
def Ttxs.complete
    (ttx : Ttxs)
    (complCode : Int)
    (threadWait : Bool) : Ttxs :=
  { complCode := complCode
    waitSem :=
      if threadWait then ttx.waitSem + 1 else ttx.waitSem }

/- Give the slot at `ddcb_out` back. -/
def DevCtx.release (ctx : DevCtx H) : DevCtx H :=
  let idx := ctx.ddcbOut
  { ctx with
    freeSem := ctx.freeSem + 1
    ddcbOut := (idx + 1) % numDdcbs
    waitq := Function.update ctx.waitq idx
      { ctx.waitq idx with
        threadWait := false
        status := .ddcbFree } }

/-
  The part of `__ddcb_done_post` that completes the slot at
  `ddcb_out`; `none` is the use of a null pointer.
-/
def ddcbComplete
    (s : Driver H)
    (complCode : Int) :
    Option (PostResult H × Driver H) :=
  let idx := s.ctx.ddcbOut
  let ddcb := s.ctx.ddcb idx
  let txq := s.ctx.waitq idx
  match txq.cmd, txq.ttx with
  | some cmd, some ttx =>
      let copied := ddcb2Cmd ddcb (s.cmds cmd)
      let code := storedCode copied.1 complCode
      some
        (.completed
          { job := ⟨ttx, cmd, txq.seqnum⟩
            passed := complCode
            rsvd0e := ddcb.rsvd0e
            result := ddcb.result
            complCode := code
            posted := txq.threadWait },
          { ctx := s.ctx.release
            ttxs := Function.update s.ttxs ttx
              ((s.ttxs ttx).complete code txq.threadWait)
            cmds := Function.update s.cmds cmd copied.2 })
  | _, _ => none

/- `__ddcb_done_post`, called at the time `now`. -/
def ddcbDonePost
    (s : Driver H)
    (complCode : Int)
    (now : UInt64) :
    Option (PostResult H × Driver H) :=
  let idx := s.ctx.ddcbOut
  let txq := s.ctx.waitq idx
  if txq.status ≠ .ddcbIn then
    some (.stop, s)
  else if complCode = ddcbErrIrqtimeout ∧
      elapsedTime now txq.qInTime < s.ctx.tout * 1000 then
    some (.cont, s)
  else if complCode = ddcbOk ∧
      (s.ctx.ddcb idx).result.retc = 0 then
    some (.stop, s)
  else
    ddcbComplete s complCode

/-
  What `__ddcb_done_post` can do: leave everything as it is,
  or complete the command of an occupied slot, which with
  `DDCB_OK` has a return code.
-/
inductive DonePost
    (s : Driver H)
    (complCode : Int) :
    PostResult H → Driver H → Prop
  | leave
      {result : PostResult H}
      (hResult : ∀ c, result ≠ .completed c) :
      DonePost s complCode result s
  | complete
      {cmd : Nat} {ttx : H}
      (hStatus :
        (s.ctx.waitq s.ctx.ddcbOut).status = .ddcbIn)
      (hCmd : (s.ctx.waitq s.ctx.ddcbOut).cmd = some cmd)
      (hTtx : (s.ctx.waitq s.ctx.ddcbOut).ttx = some ttx)
      (hRetc :
        complCode = ddcbOk →
          (s.ctx.ddcb s.ctx.ddcbOut).result.retc ≠ 0)
      {c : Completion H} {s' : Driver H}
      (hComplete :
        ddcbComplete s complCode =
          some (.completed c, s')) :
      DonePost s complCode (.completed c) s'

/- A completion shows the slot as it was. -/
theorem ddcbComplete_spec
    {s s' : Driver H}
    {complCode : Int}
    {cmd : Nat} {ttx : H}
    (hCmd : (s.ctx.waitq s.ctx.ddcbOut).cmd = some cmd)
    (hTtx : (s.ctx.waitq s.ctx.ddcbOut).ttx = some ttx)
    {result : PostResult H}
    (hComplete :
      ddcbComplete s complCode = some (result, s')) :
    let txq := s.ctx.waitq s.ctx.ddcbOut
    let ddcb := s.ctx.ddcb s.ctx.ddcbOut
    let code :=
      storedCode (ddcb2Cmd ddcb (s.cmds cmd)).1 complCode
    result =
        .completed
          { job := ⟨ttx, cmd, txq.seqnum⟩
            passed := complCode
            rsvd0e := ddcb.rsvd0e
            result := ddcb.result
            complCode := code
            posted := txq.threadWait } ∧
      s'.ctx = s.ctx.release ∧
      s'.ttxs =
        Function.update s.ttxs ttx
          ((s.ttxs ttx).complete code txq.threadWait) ∧
      s'.cmds =
        Function.update s.cmds cmd
          (ddcb2Cmd ddcb (s.cmds cmd)).2 := by
  unfold ddcbComplete at hComplete
  simp only [hCmd, hTtx] at hComplete
  cases hComplete
  exact ⟨rfl, rfl, rfl, rfl⟩

/- The only fault is a null pointer in an occupied slot. -/
theorem ddcbDonePost_outcome
    {s s' : Driver H}
    {complCode : Int} {now : UInt64}
    {result : PostResult H}
    (hPost :
      ddcbDonePost s complCode now = some (result, s')) :
    DonePost s complCode result s' := by
  unfold ddcbDonePost at hPost
  simp only at hPost
  by_cases hStatus :
      (s.ctx.waitq s.ctx.ddcbOut).status ≠ .ddcbIn
  · rw [if_pos hStatus] at hPost
    cases hPost
    exact .leave (fun _ h => nomatch h)
  rw [if_neg hStatus] at hPost
  split at hPost
  · cases hPost
    exact .leave (fun _ h => nomatch h)
  split at hPost
  · cases hPost
    exact .leave (fun _ h => nomatch h)
  · rename_i hRetc
    have hIn := not_not.mp hStatus
    cases hCmd : (s.ctx.waitq s.ctx.ddcbOut).cmd with
    | none =>
        simp [ddcbComplete, hCmd] at hPost
    | some cmd =>
        cases hTtx : (s.ctx.waitq s.ctx.ddcbOut).ttx with
        | none =>
            simp [ddcbComplete, hTtx] at hPost
        | some ttx =>
            have hSpec := ddcbComplete_spec hCmd hTtx hPost
            rcases hSpec with ⟨rfl, -⟩
            exact .complete hIn hCmd hTtx
              (fun hOk hZero => hRetc ⟨hOk, hZero⟩) hPost

end Sections

end Capi
