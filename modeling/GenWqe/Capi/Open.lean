import GenWqe.Lib.Runs
import GenWqe.Capi.Ddcb

/-
  Opening and closing CAPI handles: the contexts of the four
  cards, what an attempt to open an AFU does with them, and
  the calls of an application as a transition system.

  Key definitions include:
    * `CardCtx`, `OpenAttempt` and `cardDevOpen`
    * `clientInc` and `clientDec`
    * `cardOpen`, `cardClose` and `ddcbExecute`
    * `CapiState` and `capiStep`

  Main results:
    * `clientInc_outcome`
    * `openAll_spec`
    * `capiStep_outcome`
    * `capiStep_sound`
-/

namespace Capi.Cards

------------------------------------------------------------
-- Codes and Modes
------------------------------------------------------------

/- `DDCB_ERRNO`: a libc call went wrong. -/
def ddcbErrno : Int := -401

/- `DDCB_ERR_CARD`: problems accessing the accelerator. -/
def ddcbErrCard : Int := -402

/- `DDCB_ERR_VERS_MISMATCH`: library version mismatch. -/
def ddcbErrVersMismatch : Int := -404

/- `DDCB_ERR_ENOMEM`. -/
def ddcbErrEnomem : Int := -416

theorem ddcbErrno_ne_ok : ddcbErrno ≠ ddcbOk := by decide

theorem ddcbErrCard_ne_ok : ddcbErrCard ≠ ddcbOk := by
  decide

theorem ddcbErrEnomem_ne_ok : ddcbErrEnomem ≠ ddcbOk := by
  decide

/- `ACCEL_REDUNDANT`: use every card. -/
def accelRedundant : Int := -1

/- `NUM_CARDS`. -/
abbrev numCards : Nat := 4

instance : NeZero numCards := ⟨by decide⟩

/- An index into `my_ctx`. -/
abbrev Card := Fin numCards

/- `DDCB_MODE_POLLING & mode`. -/
def isPolling (mode : UInt32) : Bool :=
  decide (0x20 &&& mode ≠ 0)

/- `DDCB_MODE_MASTER & mode`. -/
def isMaster (mode : UInt32) : Bool :=
  decide (0x08000000 &&& mode ≠ 0)

/- `CGZIP_CR_VENDOR`. -/
def cgzipCrVendor : Int := 0x1014

/- `CGZIP_CR_DEVICE`. -/
def cgzipCrDevice : Int := 0x602

------------------------------------------------------------
-- The Context of a Card
------------------------------------------------------------

/-
  An open AFU: whether the master device was opened, and
  whether the DDCB queue registers were written.
-/
structure AfuDevice where
  master : Bool
  ddcbq : Bool
  deriving DecidableEq, Repr

/- The loop that `__ddcb_done_thread` ends up in. -/
inductive DoneLoop where
  | sleep
  | polling
  | irqs
  deriving DecidableEq, Repr

/-
  What opening and closing use of `struct dev_ctx`. The
  number of the done thread is told by whether it is zero;
  `ring` and `waitq` say that the indices with the semaphore
  of free slots and the wait queue were initialised, `loop`
  is the loop that the done thread has chosen.
-/
structure CardCtx where
  mode : UInt32
  clients : Int
  afuH : Option AfuDevice
  doneTid : Bool
  ring : Bool
  waitq : Bool
  loop : Option DoneLoop
  deriving DecidableEq, Repr

/- A context after `capi_card_init`. -/
def CardCtx.init : CardCtx :=
  { mode := 0
    clients := 0
    afuH := none
    doneTid := false
    ring := false
    waitq := false
    loop := none }

/-
  What libcxl and the kernel answer to `__afu_open`: return
  codes, with the value read where one is.
-/
structure AfuProbe where
  freeSem : Int
  openDev : Bool
  apiVersion : Int
  apiCompatible : Bool
  crVendor : Int × Int
  crDevice : Int × Int
  attach : Int
  mmioMap : Int
  ddcbqConfig : Int
  deriving DecidableEq, Repr

/-
  The checks of `__afu_open` behind opening the device, in
  their order, with the code that the first to fail gives.
-/
def AfuProbe.rc (probe : AfuProbe) (master : Bool) : Int :=
  if probe.apiVersion ≠ 0 ∨ probe.apiCompatible = false then
    ddcbErrVersMismatch
  else if probe.crVendor.1 = 0 ∧
      probe.crVendor.2 ≠ cgzipCrVendor then
    ddcbErrVersMismatch
  else if probe.crDevice.1 = 0 ∧
      probe.crDevice.2 ≠ cgzipCrDevice then
    ddcbErrCard
  else if probe.attach ≠ 0 then ddcbErrCard
  else if probe.mmioMap = -1 then ddcbErrCard
  else if master = false ∧ probe.ddcbqConfig ≠ 0 then
    ddcbErrCard
  else ddcbOk

/- `__afu_open`. -/
def afuOpen
    (ctx : CardCtx)
    (probe : AfuProbe) : Int × CardCtx :=
  let master := isMaster ctx.mode
  if ctx.afuH.isSome then
    (ddcbOk, ctx)
  else if probe.freeSem ≠ 0 then
    (ddcbErrno, { ctx with ring := false })
  else
    let ctx' :=
      { ctx with
        ring := true
        waitq := if master then ctx.waitq else true }
    if probe.openDev = false then
      (ddcbErrCard, ctx')
    else if probe.rc master ≠ ddcbOk then
      (probe.rc master, ctx')
    else
      (ddcbOk,
        { ctx' with
          afuH := some
            { master := master
              ddcbq := !master } })

/-
  What the attempt to open a device meets. Where
  `pthread_create` fails, the number of the thread is left
  undefined; `leftTid` says that it is not zero.
-/
structure OpenAttempt where
  doneSem : Int
  thread : Int
  leftTid : Bool
  probe : AfuProbe
  deriving DecidableEq, Repr

/-
  `card_dev_open`, with the part of `__ddcb_done_thread` that
  it waits for.
-/
def cardDevOpen
    (ctx : CardCtx)
    (attempt : OpenAttempt) : Int × CardCtx :=
  if ctx.doneTid then
    (ddcbOk, ctx)
  else if attempt.doneSem ≠ 0 then
    (ddcbErrno, ctx)
  else if attempt.thread ≠ 0 then
    (ddcbErrEnomem, { ctx with doneTid := attempt.leftTid })
  else
    let opened :=
      afuOpen { ctx with doneTid := true, loop := none }
        attempt.probe
    if opened.1 ≠ ddcbOk then
      (opened.1, { opened.2 with doneTid := false })
    else
      (ddcbOk, opened.2)

/- `__client_inc`. -/
def clientInc
    (ctx : CardCtx)
    (mode : UInt32)
    (attempt : OpenAttempt) : Int × CardCtx :=
  if ctx.clients = 0 then
    let opened := cardDevOpen { ctx with mode := mode } attempt
    if opened.1 = ddcbOk then
      (ddcbOk,
        { opened.2 with clients := opened.2.clients + 1 })
    else
      opened
  else if mode ≠ ctx.mode then
    (ddcbErrno, ctx)
  else
    (ddcbOk, { ctx with clients := ctx.clients + 1 })

/- `__client_dec`: the AFU and the thread are kept. -/
def clientDec (ctx : CardCtx) : CardCtx :=
  { ctx with clients := ctx.clients - 1 }

/- The loop that a mode asks for. -/
def doneLoop (mode : UInt32) : DoneLoop :=
  if isMaster mode then .sleep
  else if isPolling mode then .polling
  else .irqs

/-
  The rest of `__ddcb_done_thread`, at any time after the
  AFU was opened: choose a loop by the mode as it is now.
-/
def doneThread (ctx : CardCtx) : Option CardCtx :=
  if ctx.doneTid ∧ ctx.afuH.isSome ∧ ctx.loop = none then
    some { ctx with loop := some (doneLoop ctx.mode) }
  else
    none

------------------------------------------------------------
-- Handles
------------------------------------------------------------

/-
  What opening and closing use of `struct ttxs`. `attached`
  remembers the cards whose `__client_inc` was successful;
  the source does not.
-/
structure Ttx where
  addr : Nat
  cardNo : Option Card
  ctx : Option Card
  cardNext : Card
  attached : Card → Bool
  deriving DecidableEq

/- The contexts and the handle that are being bound. -/
structure Binding where
  ctxs : Card → CardCtx
  ttx : Ttx
  rc : Int

/- One turn of the loop over all cards in `card_open`. -/
def openNext
    (mode : UInt32)
    (attempts : Card → OpenAttempt)
    (b : Binding) : Binding :=
  let c := b.ttx.cardNext
  let inc := clientInc (b.ctxs c) mode (attempts c)
  { ctxs := Function.update b.ctxs c inc.2
    ttx :=
      { b.ttx with
        ctx := if inc.1 = ddcbOk then some c else b.ttx.ctx
        cardNext := c + 1
        attached :=
          Function.update b.ttx.attached c
            (decide (inc.1 = ddcbOk)) }
    rc := inc.1 }

/- The first `n` turns. -/
def openAll
    (mode : UInt32)
    (attempts : Card → OpenAttempt)
    (b : Binding) : Nat → Binding
  | 0 => b
  | n + 1 => openNext mode attempts (openAll mode attempts b n)

/- The card number of an open, if it is valid. -/
def cardOfNo (cardNo : Int) : Option (Option Card) :=
  if cardNo = accelRedundant then some none
  else if h : 0 ≤ cardNo ∧ cardNo < numCards then
    some (some ⟨cardNo.toNat, by omega⟩)
  else
    none

/-
  The contexts of the cards, the handles that are open, and
  the next address that `calloc` gives out.
-/
structure CapiState where
  ctxs : Card → CardCtx
  live : List Ttx
  next : Nat

/- The library after `capi_card_init`. -/
def CapiState.init : CapiState :=
  { ctxs := fun _ => CardCtx.init
    live := []
    next := 1 }

/-
  A call of `card_open` with what it meets: whether `calloc`
  finds memory, and `rand() % NUM_CARDS`.
-/
structure OpenCall where
  cardNo : Int
  mode : UInt32
  alloc : Bool
  start : Card
  attempts : Card → OpenAttempt

/- The handle returned and the code stored. -/
structure Opened where
  ttx : Option Ttx
  rc : Int
  deriving DecidableEq

/- The handle that `card_open` allocates. -/
def OpenCall.ttx
    (call : OpenCall)
    (addr : Nat)
    (cardNo : Option Card) : Ttx :=
  { addr := addr
    cardNo := cardNo
    ctx := cardNo
    cardNext := call.start
    attached := fun _ => false }

/- The branch of `card_open` for one card. -/
def openSingle
    (s : CapiState)
    (call : OpenCall)
    (c : Card) : Opened × CapiState :=
  let inc := clientInc (s.ctxs c) call.mode (call.attempts c)
  let ctxs := Function.update s.ctxs c inc.2
  let ttx :=
    { call.ttx s.next (some c) with
      attached := fun d => decide (d = c) }
  if inc.1 ≠ ddcbOk then
    (⟨none, inc.1⟩, { s with ctxs := ctxs })
  else
    (⟨some ttx, inc.1⟩,
      { ctxs := ctxs
        live := ttx :: s.live
        next := s.next + 1 })

/- The branch of `card_open` for all cards. -/
def openRedundant
    (s : CapiState)
    (call : OpenCall) : Opened × CapiState :=
  let b :=
    openAll call.mode call.attempts
      ⟨s.ctxs, call.ttx s.next none, ddcbOk⟩ numCards
  (⟨some b.ttx, b.rc⟩,
    { ctxs := b.ctxs
      live := b.ttx :: s.live
      next := s.next + 1 })

/- `card_open`. -/
def cardOpen
    (s : CapiState)
    (call : OpenCall) : Opened × CapiState :=
  match cardOfNo call.cardNo with
  | none => (⟨none, ddcbErrInval⟩, s)
  | some cardNo =>
      if call.alloc = false then
        (⟨none, ddcbErrEnomem⟩, s)
      else
        match cardNo with
        | some c => openSingle s call c
        | none => openRedundant s call

/- `card_close` of an open handle. -/
def cardClose (s : CapiState) (ttx : Ttx) : CapiState :=
  { s with
    ctxs :=
      match ttx.cardNo with
      | some c =>
          Function.update s.ctxs c (clientDec (s.ctxs c))
      | none => fun c => clientDec (s.ctxs c)
    live := s.live.erase ttx }

------------------------------------------------------------
-- Executing
------------------------------------------------------------

/-
  How far `__ddcb_execute_multi` gets with the context of the
  handle: a null pointer is used, a master is refused, the
  DDCBs go to an AFU that is not open, or they are submitted
  with or without asking for an interrupt.
-/
inductive Submission where
  | nullCtx
  | refused
  | closedAfu (c : Card)
  | submitted (c : Card) (useIrq : Bool)
  deriving DecidableEq, Repr

/-
  The loop of `ddcb_execute` over the cards: the first of the
  next `n` cards whose AFU is open, and where it stopped.
-/
def nextOpen
    (ctxs : Card → CardCtx)
    (cardNext : Card) : Nat → Option Card × Card
  | 0 => (none, cardNext)
  | n + 1 =>
      if (ctxs (cardNext + 1)).afuH.isSome then
        (some (cardNext + 1), cardNext + 1)
      else
        nextOpen ctxs (cardNext + 1) n

/- The handle as `ddcb_execute` passes it on. -/
def chooseCard
    (ctxs : Card → CardCtx)
    (ttx : Ttx) : Ttx :=
  match ttx.cardNo with
  | some _ => ttx
  | none =>
      let found := nextOpen ctxs ttx.cardNext numCards
      { ttx with
        ctx := found.1.or ttx.ctx
        cardNext := found.2 }

/- `__ddcb_execute_multi`, up to the first submission. -/
def executeMulti
    (ctxs : Card → CardCtx)
    (ttx : Ttx) : Submission :=
  match ttx.ctx with
  | none => .nullCtx
  | some c =>
      if isMaster (ctxs c).mode then .refused
      else if (ctxs c).afuH = none then .closedAfu c
      else .submitted c (!isPolling (ctxs c).mode)

/- `ddcb_execute` on an open handle. -/
def ddcbExecute
    (s : CapiState)
    (ttx : Ttx) : Submission × CapiState :=
  let ttx' := chooseCard s.ctxs ttx
  (executeMulti s.ctxs ttx',
    { s with
      live := s.live.map (fun t =>
        if t = ttx then ttx' else t) })

------------------------------------------------------------
-- Calls
------------------------------------------------------------

/-
  What happens to the library. Handles are passed by their
  address; the null pointer is no address.
-/
inductive Call where
  | open (call : OpenCall)
  | close (ttx : Option Nat)
  | execute (ttx : Nat)
  | doneThread (c : Card)

/- What comes back. -/
inductive Answer where
  | opened (opened : Opened)
  | closed (rc : Int)
  | executed (submission : Submission)
  | chosen
  deriving DecidableEq

/- The open handle at an address. -/
def CapiState.handle
    (s : CapiState)
    (addr : Nat) : Option Ttx :=
  s.live.find? (fun t => t.addr = addr)

/-
  One call. Applications close and execute open handles
  only; what was freed is not looked at again.
-/
def capiCall
    (s : CapiState) : Call → Option (Answer × CapiState)
  | .open call =>
      let result := cardOpen s call
      some (.opened result.1, result.2)
  | .close none => some (.closed ddcbErrInval, s)
  | .close (some addr) =>
      (s.handle addr).map (fun ttx =>
        (.closed ddcbOk, cardClose s ttx))
  | .execute addr =>
      (s.handle addr).map (fun ttx =>
        (.executed (ddcbExecute s ttx).1,
          (ddcbExecute s ttx).2))
  | .doneThread c =>
      (doneThread (s.ctxs c)).map (fun ctx =>
        (.chosen,
          { s with ctxs := Function.update s.ctxs c ctx }))

/- A call with its answer. -/
abbrev CapiEvent := Call × Answer

/- One step, labelled with the call and its answer. -/
def capiStep
    (s : CapiState)
    (event : CapiEvent)
    (s' : CapiState) : Prop :=
  capiCall s event.1 = some (event.2, s')

/- What has happened to the library since it was loaded. -/
abbrev CapiRun (trace : List CapiEvent) (s : CapiState) :
    Prop :=
  Run capiStep CapiState.init trace s

/- The event of an open. -/
def CapiState.openEvent
    (s : CapiState)
    (call : OpenCall) : CapiEvent :=
  (.open call, .opened (cardOpen s call).1)

/- The event of closing a handle. -/
def closeEvent (ttx : Nat) : CapiEvent :=
  (.close (some ttx), .closed ddcbOk)

section RunRules

variable {trace : List CapiEvent} {s : CapiState}

theorem CapiRun.open
    (hRun : CapiRun trace s)
    (call : OpenCall) :
    CapiRun (trace ++ [s.openEvent call])
      (cardOpen s call).2 :=
  Run.next hRun rfl

theorem CapiRun.close
    (hRun : CapiRun trace s)
    {addr : Nat} {ttx : Ttx}
    (hHandle : s.handle addr = some ttx) :
    CapiRun (trace ++ [closeEvent addr])
      (cardClose s ttx) := by
  refine Run.next hRun ?_
  unfold capiStep closeEvent
  simp [capiCall, hHandle]

theorem CapiRun.execute
    (hRun : CapiRun trace s)
    {addr : Nat} {ttx : Ttx}
    (hHandle : s.handle addr = some ttx) :
    CapiRun
      (trace ++
        [(.execute addr, .executed (ddcbExecute s ttx).1)])
      (ddcbExecute s ttx).2 := by
  refine Run.next hRun ?_
  unfold capiStep
  simp [capiCall, hHandle]

theorem CapiRun.doneThread
    (hRun : CapiRun trace s)
    {c : Card} {ctx : CardCtx}
    (hCtx : Cards.doneThread (s.ctxs c) = some ctx) :
    CapiRun (trace ++ [(.doneThread c, .chosen)])
      { s with ctxs := Function.update s.ctxs c ctx } := by
  refine Run.next hRun ?_
  unfold capiStep
  simp [capiCall, hCtx]

end RunRules

theorem capiStep_unique
    (s : CapiState)
    (event : CapiEvent)
    (s₁ s₂ : CapiState)
    (hFirst : capiStep s event s₁)
    (hSecond : capiStep s event s₂) :
    s₁ = s₂ := by
  unfold capiStep at hFirst hSecond
  rw [hFirst] at hSecond
  cases hSecond
  rfl

------------------------------------------------------------
-- What an Open Does to a Context
------------------------------------------------------------

/-
  What holds of a context at any time: an open AFU has its
  thread, its ring and, if it is a slave, its queue; only a
  thread whose AFU is open has chosen a loop.
-/
structure CardCtx.Tended (ctx : CardCtx) : Prop where
  tid : ctx.afuH.isSome → ctx.doneTid = true
  ring : ctx.afuH.isSome → ctx.ring = true
  queue :
    ∀ afu, ctx.afuH = some afu → afu.master = false →
      ctx.waitq = true ∧ afu.ddcbq = true
  loop : ctx.loop.isSome → ctx.afuH.isSome

/- The attempt opens the AFU for `mode`. -/
def OpenAttempt.Opens
    (attempt : OpenAttempt)
    (mode : UInt32) : Prop :=
  attempt.doneSem = 0 ∧ attempt.thread = 0 ∧
    attempt.probe.freeSem = 0 ∧
    attempt.probe.openDev = true ∧
    attempt.probe.rc (isMaster mode) = ddcbOk

/- A context whose AFU was just opened for its first client. -/
def CardCtx.fresh (ctx : CardCtx) (mode : UInt32) : CardCtx :=
  { mode := mode
    clients := 1
    afuH := some
      { master := isMaster mode
        ddcbq := !isMaster mode }
    doneTid := true
    ring := true
    waitq := if isMaster mode then ctx.waitq else true
    loop := none }

/-
  What `__client_inc` can do: share an AFU that is in use,
  refuse another mode, take over an AFU whose thread is still
  there, open the AFU, or fail to.
-/
inductive ClientInc
    (ctx : CardCtx)
    (mode : UInt32)
    (attempt : OpenAttempt) : Int → CardCtx → Prop
  | shared
      (hClients : ctx.clients ≠ 0)
      (hMode : mode = ctx.mode) :
      ClientInc ctx mode attempt ddcbOk
        { ctx with clients := ctx.clients + 1 }
  | refused
      (hClients : ctx.clients ≠ 0)
      (hMode : mode ≠ ctx.mode) :
      ClientInc ctx mode attempt ddcbErrno ctx
  | reused
      (hClients : ctx.clients = 0)
      (hTid : ctx.doneTid = true) :
      ClientInc ctx mode attempt ddcbOk
        { ctx with mode := mode, clients := 1 }
  | opened
      (hClients : ctx.clients = 0)
      (hTid : ctx.doneTid = false)
      (hOpens : attempt.Opens mode) :
      ClientInc ctx mode attempt ddcbOk (ctx.fresh mode)
  | failed
      {rc : Int} {ctx' : CardCtx}
      (hClients : ctx.clients = 0)
      (hTid : ctx.doneTid = false)
      (hOpens : ¬attempt.Opens mode)
      (hRc : rc ≠ ddcbOk)
      (hClients' : ctx'.clients = 0)
      (hAfu : ctx'.afuH = none)
      (hLoop : ctx'.loop = none) :
      ClientInc ctx mode attempt rc ctx'

section Opening

variable {ctx : CardCtx} {mode : UInt32}
variable {attempt : OpenAttempt}

theorem CardCtx.Tended.closed
    (hTended : ctx.Tended)
    (hTid : ctx.doneTid = false) :
    ctx.afuH = none ∧ ctx.loop = none := by
  have hAfu : ctx.afuH = none := by
    cases hOpen : ctx.afuH with
    | none => rfl
    | some afu =>
        have hSet := hTended.tid (by simp [hOpen])
        simp [hTid] at hSet
  refine ⟨hAfu, ?_⟩
  cases hLoop : ctx.loop with
  | none => rfl
  | some l =>
      have hOpen := hTended.loop (by simp [hLoop])
      simp [hAfu] at hOpen

/-
  An AFU that is not open yet is opened as the device of the
  mode, or stays closed.
-/
theorem afuOpen_closed
    (ctx : CardCtx)
    (probe : AfuProbe)
    (hAfu : ctx.afuH = none) :
    (probe.freeSem = 0 ∧ probe.openDev = true ∧
        probe.rc (isMaster ctx.mode) = ddcbOk ∧
        afuOpen ctx probe =
          (ddcbOk,
            { ctx with
              ring := true
              waitq :=
                if isMaster ctx.mode then ctx.waitq else true
              afuH := some
                { master := isMaster ctx.mode
                  ddcbq := !isMaster ctx.mode } })) ∨
      (¬(probe.freeSem = 0 ∧ probe.openDev = true ∧
          probe.rc (isMaster ctx.mode) = ddcbOk) ∧
        (afuOpen ctx probe).1 ≠ ddcbOk ∧
        (afuOpen ctx probe).2.afuH = none ∧
        (afuOpen ctx probe).2.clients = ctx.clients ∧
        (afuOpen ctx probe).2.loop = ctx.loop) := by
  unfold afuOpen
  simp only [hAfu, Option.isSome_none, Bool.false_eq_true,
    if_false]
  by_cases hSem : probe.freeSem ≠ 0
  · rw [if_pos hSem]
    exact Or.inr
      ⟨fun h => hSem h.1, ddcbErrno_ne_ok, rfl, rfl, rfl⟩
  rw [if_neg hSem]
  by_cases hDev : probe.openDev = false
  · rw [if_pos hDev]
    exact Or.inr
      ⟨fun h => by simp [hDev] at h, ddcbErrCard_ne_ok, rfl,
        rfl, rfl⟩
  rw [if_neg hDev]
  by_cases hRc : probe.rc (isMaster ctx.mode) ≠ ddcbOk
  · rw [if_pos hRc]
    exact Or.inr ⟨fun h => hRc h.2.2, hRc, rfl, rfl, rfl⟩
  rw [if_neg hRc]
  exact Or.inl
    ⟨not_not.mp hSem, by simpa using hDev, not_not.mp hRc,
      rfl⟩

theorem clientInc_outcome
    (hTended : ctx.Tended) :
    ClientInc ctx mode attempt
      (clientInc ctx mode attempt).1
      (clientInc ctx mode attempt).2 := by
  unfold clientInc
  by_cases hClients : ctx.clients = 0
  · rw [if_pos hClients]
    unfold cardDevOpen
    cases hTid : ctx.doneTid with
    | true =>
        have hReused :
            ClientInc ctx mode attempt ddcbOk
              { ctx with mode := mode, clients := 1 } :=
          .reused hClients hTid
        simpa [hClients, hTid] using hReused
    | false =>
        rcases hTended.closed hTid with ⟨hAfu, hLoop⟩
        simp only [Bool.false_eq_true, if_false]
        by_cases hSem : attempt.doneSem ≠ 0
        · rw [if_pos hSem, if_neg ddcbErrno_ne_ok]
          exact .failed hClients hTid (fun h => hSem h.1)
            ddcbErrno_ne_ok hClients hAfu hLoop
        rw [if_neg hSem]
        by_cases hThread : attempt.thread ≠ 0
        · rw [if_pos hThread, if_neg ddcbErrEnomem_ne_ok]
          exact .failed hClients hTid
            (fun h => hThread h.2.1) ddcbErrEnomem_ne_ok
            hClients hAfu hLoop
        rw [if_neg hThread]
        rcases afuOpen_closed
            { ctx with
              mode := mode
              doneTid := true
              loop := none }
            attempt.probe hAfu with
          ⟨hFree, hDev, hRc, hOpen⟩ | hFail
        · have hOpened :
              ClientInc ctx mode attempt ddcbOk
                (ctx.fresh mode) :=
            .opened hClients hTid
              ⟨not_not.mp hSem, not_not.mp hThread, hFree,
                hDev, hRc⟩
          simp only [hOpen]
          simpa [hClients, CardCtx.fresh] using hOpened
        · rcases hFail with
            ⟨hNot, hRc, hNone, hSame, hNoLoop⟩
          simp only [ne_eq, hRc, not_false_eq_true, if_true,
            if_false]
          exact .failed hClients hTid
            (fun h => hNot ⟨h.2.2.1, h.2.2.2.1, h.2.2.2.2⟩)
            hRc (hSame.trans hClients) hNone hNoLoop
  · rw [if_neg hClients]
    by_cases hMode : mode ≠ ctx.mode
    · rw [if_pos hMode]
      exact .refused hClients hMode
    · rw [if_neg hMode]
      exact .shared hClients (not_not.mp hMode)

/- Contexts stay tended. -/
theorem ClientInc.tended
    {rc : Int} {ctx' : CardCtx}
    (hTended : ctx.Tended)
    (hInc : ClientInc ctx mode attempt rc ctx') :
    ctx'.Tended := by
  cases hInc with
  | shared _ _ =>
      exact ⟨hTended.tid, hTended.ring, hTended.queue,
        hTended.loop⟩
  | refused _ _ => exact hTended
  | reused _ _ =>
      exact ⟨hTended.tid, hTended.ring, hTended.queue,
        hTended.loop⟩
  | opened _ _ _ =>
      refine ⟨fun _ => rfl, fun _ => rfl, ?_, ?_⟩
      · intro afu hAfu hMaster
        cases hAfu
        simp only at hMaster
        simp [CardCtx.fresh, hMaster]
      · simp [CardCtx.fresh]
  | failed _ _ _ _ _ hAfu hLoop =>
      exact ⟨by simp [hAfu], by simp [hAfu],
        by simp [hAfu], by simp [hLoop]⟩

/- The call is successful for these states and outcomes. -/
def CardCtx.Attaches
    (ctx : CardCtx)
    (mode : UInt32)
    (attempt : OpenAttempt) : Prop :=
  (ctx.clients ≠ 0 ∧ mode = ctx.mode) ∨
    (ctx.clients = 0 ∧
      (ctx.doneTid = true ∨ attempt.Opens mode))

theorem ClientInc.ok_iff
    {rc : Int} {ctx' : CardCtx}
    (hInc : ClientInc ctx mode attempt rc ctx') :
    rc = ddcbOk ↔ ctx.Attaches mode attempt := by
  unfold CardCtx.Attaches
  cases hInc with
  | shared hClients hMode => simp [hClients, hMode]
  | refused hClients hMode =>
      simp [hClients, hMode, ddcbErrno, ddcbOk]
  | reused hClients hTid => simp [hClients, hTid]
  | opened hClients hTid hOpens => simp [hClients, hOpens]
  | failed hClients hTid hOpens hRc =>
      simp [hClients, hTid, hOpens, hRc]

/- An open AFU stays as it is. -/
theorem ClientInc.afu_kept
    {rc : Int} {ctx' : CardCtx}
    (hTended : ctx.Tended)
    (hInc : ClientInc ctx mode attempt rc ctx')
    (hAfu : ctx.afuH.isSome) :
    ctx'.afuH = ctx.afuH := by
  have hTid := hTended.tid hAfu
  cases hInc with
  | shared _ _ => rfl
  | refused _ _ => rfl
  | reused _ _ => rfl
  | opened _ hNoTid _ => simp [hTid] at hNoTid
  | failed _ hNoTid => simp [hTid] at hNoTid

end Opening

------------------------------------------------------------
-- The Loop over All Cards
------------------------------------------------------------

/- The card is one of the first `n` tried from `start`. -/
def tried (start d : Card) (n : Nat) : Bool :=
  decide ((d - start).val < n)

theorem tried_all (start d : Card) :
    tried start d numCards = true := by
  unfold tried
  simp only [decide_eq_true_eq]
  exact (d - start).isLt

/- The card whose turn comes behind `n` others is new. -/
theorem tried_next
    (n : Nat)
    (hn : n < numCards)
    (start d : Card) :
    tried start d (n + 1) =
      (tried start d n ||
        decide (d = start + Fin.ofNat 4 n)) := by
  unfold tried
  revert n
  revert start d
  decide

theorem tried_fresh
    (n : Nat)
    (hn : n < numCards)
    (start : Card) :
    tried start (start + Fin.ofNat 4 n) n = false := by
  unfold tried
  revert n
  revert start
  decide

/- The last card that the loop tries. -/
def lastTried (start : Card) : Card := start + 3

section Loop

variable (mode : UInt32) (attempts : Card → OpenAttempt)

/- What `__client_inc` gives for each card on its own. -/
def incs (ctxs : Card → CardCtx) (d : Card) : Int × CardCtx :=
  clientInc (ctxs d) mode (attempts d)

/-
  Behind `n` turns the cards tried have had one client more
  each, and the handle knows a card that let it in.
-/
structure Tries
    (b : Binding)
    (n : Nat)
    (b' : Binding) : Prop where
  ctxs :
    ∀ d, b'.ctxs d =
      if tried b.ttx.cardNext d n then
        (incs mode attempts b.ctxs d).2
      else
        b.ctxs d
  attached :
    ∀ d, b'.ttx.attached d =
      if tried b.ttx.cardNext d n then
        decide ((incs mode attempts b.ctxs d).1 = ddcbOk)
      else
        b.ttx.attached d
  cardNext :
    b'.ttx.cardNext = b.ttx.cardNext + Fin.ofNat 4 n
  ctx :
    (∃ c,
        b'.ttx.ctx = some c ∧
          tried b.ttx.cardNext c n = true ∧
          (incs mode attempts b.ctxs c).1 = ddcbOk) ∨
      (b'.ttx.ctx = b.ttx.ctx ∧
        ∀ c, tried b.ttx.cardNext c n = true →
          (incs mode attempts b.ctxs c).1 ≠ ddcbOk)
  rc :
    ∀ m, n = m + 1 →
      b'.rc =
        (incs mode attempts b.ctxs
          (b.ttx.cardNext + Fin.ofNat 4 m)).1
  addr : b'.ttx.addr = b.ttx.addr
  cardNo : b'.ttx.cardNo = b.ttx.cardNo

/- One more turn. -/
theorem Tries.next
    {b b' : Binding} {n : Nat}
    (hn : n < numCards)
    (hTries : Tries mode attempts b n b') :
    Tries mode attempts b (n + 1)
      (openNext mode attempts b') := by
  have hFresh := tried_fresh n hn b.ttx.cardNext
  have hSame :
      clientInc (b'.ctxs b'.ttx.cardNext) mode
          (attempts b'.ttx.cardNext) =
        incs mode attempts b.ctxs b'.ttx.cardNext := by
    rw [hTries.ctxs, hTries.cardNext, hFresh]
    rfl
  have hHere :
      tried b.ttx.cardNext b'.ttx.cardNext (n + 1) = true := by
    rw [tried_next n hn, hTries.cardNext]
    simp
  refine
    { ctxs := fun d => ?_
      attached := fun d => ?_
      cardNext := ?_
      ctx := ?_
      rc := ?_
      addr := hTries.addr
      cardNo := hTries.cardNo }
  · unfold openNext
    simp only [hSame]
    by_cases hd : d = b'.ttx.cardNext
    · subst hd
      rw [Function.update_self, if_pos hHere]
    · rw [Function.update_of_ne hd, hTries.ctxs]
      rw [hTries.cardNext] at hd
      rw [tried_next n hn, decide_eq_false hd,
        Bool.or_false]
  · unfold openNext
    simp only [hSame]
    by_cases hd : d = b'.ttx.cardNext
    · subst hd
      rw [Function.update_self, if_pos hHere]
    · rw [Function.update_of_ne hd, hTries.attached]
      rw [hTries.cardNext] at hd
      rw [tried_next n hn, decide_eq_false hd,
        Bool.or_false]
  · have hNext :
        ∀ start : Card, ∀ k < numCards,
          start + Fin.ofNat 4 k + 1 =
            start + Fin.ofNat 4 (k + 1) := by decide
    unfold openNext
    simp only [hTries.cardNext]
    exact hNext _ n hn
  · unfold openNext
    simp only [hSame]
    by_cases hOk :
        (incs mode attempts b.ctxs b'.ttx.cardNext).1 = ddcbOk
    · rw [if_pos hOk]
      exact Or.inl ⟨_, rfl, hHere, hOk⟩
    · rw [if_neg hOk]
      rcases hTries.ctx with ⟨c, hc, hTried, hcOk⟩ |
        ⟨hc, hNone⟩
      · refine Or.inl ⟨c, hc, ?_, hcOk⟩
        rw [tried_next n hn, hTried]
        rfl
      · refine Or.inr ⟨hc, fun c hTried => ?_⟩
        rw [tried_next n hn] at hTried
        rcases Bool.or_eq_true_iff.mp hTried with hOld | hNew
        · exact hNone c hOld
        · rw [of_decide_eq_true hNew, ← hTries.cardNext]
          exact hOk
  · intro m hm
    obtain rfl : n = m := by omega
    unfold openNext
    simp only [hSame]
    rw [hTries.cardNext]

theorem openAll_tries
    (b : Binding)
    (n : Nat)
    (hn : n ≤ numCards) :
    Tries mode attempts b n (openAll mode attempts b n) := by
  induction n with
  | zero =>
      exact
        { ctxs := fun d => rfl
          attached := fun d => rfl
          cardNext := by simp [openAll]
          ctx := Or.inr ⟨rfl, fun c h => by simp [tried] at h⟩
          rc := fun m hm => by omega
          addr := rfl
          cardNo := rfl }
  | succ n ih => exact (ih (by omega)).next _ _ hn

/-
  The whole loop: every card has been asked once, in the
  state in which it was before the loop.
-/
theorem openAll_spec (b : Binding) :
    let b' := openAll mode attempts b numCards
    (∀ d, b'.ctxs d = (incs mode attempts b.ctxs d).2) ∧
      (∀ d,
        b'.ttx.attached d =
          decide
            ((incs mode attempts b.ctxs d).1 = ddcbOk)) ∧
      ((∃ c,
          b'.ttx.ctx = some c ∧
            (incs mode attempts b.ctxs c).1 = ddcbOk) ∨
        (b'.ttx.ctx = b.ttx.ctx ∧
          ∀ c, (incs mode attempts b.ctxs c).1 ≠ ddcbOk)) ∧
      b'.rc =
        (incs mode attempts b.ctxs
          (lastTried b.ttx.cardNext)).1 ∧
      b'.ttx.addr = b.ttx.addr ∧
      b'.ttx.cardNo = b.ttx.cardNo := by
  intro b'
  have hAll := openAll_tries mode attempts b numCards le_rfl
  refine ⟨fun d => ?_, fun d => ?_, ?_, ?_, hAll.addr,
    hAll.cardNo⟩
  · rw [hAll.ctxs d, if_pos (tried_all _ d)]
  · rw [hAll.attached d, if_pos (tried_all _ d)]
  · rcases hAll.ctx with ⟨c, hc, -, hOk⟩ | ⟨hc, hNone⟩
    · exact Or.inl ⟨c, hc, hOk⟩
    · exact Or.inr ⟨hc, fun c => hNone c (tried_all _ c)⟩
  · rw [hAll.rc 3 rfl]
    rfl

end Loop

------------------------------------------------------------
-- What a Call Can Do
------------------------------------------------------------

/- The contexts behind one `__client_inc` for each card. -/
def OpenCall.after
    (call : OpenCall)
    (ctxs : Card → CardCtx)
    (d : Card) : Int × CardCtx :=
  incs call.mode call.attempts ctxs d

/-
  The outcomes of a call. An open is refused before any card
  is touched, fails or succeeds for one card, or tries them
  all and gives a handle out in any case.
-/
inductive CapiOutcome
    (s : CapiState) : CapiEvent → CapiState → Prop
  | refused
      {call : OpenCall} {rc : Int}
      (hRefused :
        cardOfNo call.cardNo = none ∨ call.alloc = false)
      (hRc : rc ≠ ddcbOk) :
      CapiOutcome s (.open call, .opened ⟨none, rc⟩) s
  | failed
      {call : OpenCall} {c : Card}
      (hCard : cardOfNo call.cardNo = some (some c))
      (hAlloc : call.alloc = true)
      (hRc : (call.after s.ctxs c).1 ≠ ddcbOk) :
      CapiOutcome s
        (.open call,
          .opened ⟨none, (call.after s.ctxs c).1⟩)
        { s with
          ctxs :=
            Function.update s.ctxs c
              (call.after s.ctxs c).2 }
  | single
      {call : OpenCall} {c : Card} {ttx : Ttx}
      (hCard : cardOfNo call.cardNo = some (some c))
      (hAlloc : call.alloc = true)
      (hRc : (call.after s.ctxs c).1 = ddcbOk)
      (hNo : ttx.cardNo = some c)
      (hCtx : ttx.ctx = some c)
      (hAttached : ∀ d, ttx.attached d = decide (d = c)) :
      CapiOutcome s
        (.open call, .opened ⟨some ttx, ddcbOk⟩)
        { ctxs :=
            Function.update s.ctxs c
              (call.after s.ctxs c).2
          live := ttx :: s.live
          next := s.next + 1 }
  | redundant
      {call : OpenCall} {ttx : Ttx}
      (hCard : cardOfNo call.cardNo = some none)
      (hAlloc : call.alloc = true)
      (hNo : ttx.cardNo = none)
      (hCtx :
        (∃ c,
            ttx.ctx = some c ∧
              (call.after s.ctxs c).1 = ddcbOk) ∨
          (ttx.ctx = none ∧
            ∀ c, (call.after s.ctxs c).1 ≠ ddcbOk))
      (hAttached :
        ∀ d, ttx.attached d =
          decide ((call.after s.ctxs d).1 = ddcbOk)) :
      CapiOutcome s
        (.open call,
          .opened
            ⟨some ttx,
              (call.after s.ctxs
                (lastTried call.start)).1⟩)
        { ctxs := fun d => (call.after s.ctxs d).2
          live := ttx :: s.live
          next := s.next + 1 }
  | nothing :
      CapiOutcome s (.close none, .closed ddcbErrInval) s
  | closed
      {addr : Nat} {ttx : Ttx}
      (hHandle : s.handle addr = some ttx) :
      CapiOutcome s (.close (some addr), .closed ddcbOk)
        (cardClose s ttx)
  | executed
      {addr : Nat} {ttx : Ttx}
      (hHandle : s.handle addr = some ttx) :
      CapiOutcome s
        (.execute addr, .executed (ddcbExecute s ttx).1)
        (ddcbExecute s ttx).2
  | chosen
      {c : Card}
      (hTid : (s.ctxs c).doneTid = true)
      (hAfu : (s.ctxs c).afuH.isSome)
      (hLoop : (s.ctxs c).loop = none) :
      CapiOutcome s (.doneThread c, .chosen)
        { s with
          ctxs :=
            Function.update s.ctxs c
              { s.ctxs c with
                loop :=
                  some (doneLoop (s.ctxs c).mode) } }

section Outcome

variable {s s' : CapiState} {event : CapiEvent}

theorem cardOpen_outcome
    (s : CapiState)
    (call : OpenCall) :
    CapiOutcome s
      (.open call, .opened (cardOpen s call).1)
      (cardOpen s call).2 := by
  unfold cardOpen
  cases hCard : cardOfNo call.cardNo with
  | none => exact .refused (Or.inl hCard) (by decide)
  | some cardNo =>
      by_cases hAlloc : call.alloc = false
      · simp only [hAlloc, if_true]
        exact .refused (Or.inr hAlloc) ddcbErrEnomem_ne_ok
      simp only [if_neg hAlloc]
      replace hAlloc : call.alloc = true := by
        simpa using hAlloc
      cases cardNo with
      | some c =>
          simp only [openSingle]
          by_cases hRc : (call.after s.ctxs c).1 = ddcbOk
          · have hInc :
                (clientInc (s.ctxs c) call.mode
                  (call.attempts c)).1 = ddcbOk := hRc
            simp only [hInc, ne_eq, not_true_eq_false,
              if_false]
            exact .single hCard hAlloc hRc rfl rfl
              (fun d => rfl)
          · have hInc :
                (clientInc (s.ctxs c) call.mode
                  (call.attempts c)).1 ≠ ddcbOk := hRc
            rw [if_pos hInc]
            exact .failed hCard hAlloc hRc
      | none =>
          rcases openAll_spec call.mode call.attempts
              ⟨s.ctxs, call.ttx s.next none, ddcbOk⟩ with
            ⟨hCtxs, hAttached, hCtx, hRc, -, hNo⟩
          simp only [openRedundant]
          rw [hRc, funext hCtxs]
          exact .redundant hCard hAlloc hNo hCtx hAttached

theorem capiStep_outcome
    (hStep : capiStep s event s') :
    CapiOutcome s event s' := by
  rcases event with ⟨call, answer⟩
  unfold capiStep at hStep
  cases call with
  | «open» call =>
      cases hStep
      exact cardOpen_outcome s call
  | close ttx =>
      cases ttx with
      | none =>
          cases hStep
          exact .nothing
      | some addr =>
          simp only [capiCall] at hStep
          cases hHandle : s.handle addr with
          | none => simp [hHandle] at hStep
          | some ttx =>
              simp only [hHandle, Option.map_some] at hStep
              cases hStep
              exact .closed hHandle
  | execute addr =>
      simp only [capiCall] at hStep
      cases hHandle : s.handle addr with
      | none => simp [hHandle] at hStep
      | some ttx =>
          simp only [hHandle, Option.map_some] at hStep
          cases hStep
          exact .executed hHandle
  | doneThread c =>
      simp only [capiCall, doneThread] at hStep
      split at hStep
      · rename_i hRuns
        cases hStep
        exact .chosen hRuns.1 hRuns.2.1 hRuns.2.2
      · cases hStep

/- An open handle is on the list. -/
theorem handle_mem
    {addr : Nat} {ttx : Ttx}
    (hHandle : s.handle addr = some ttx) :
    ttx ∈ s.live :=
  List.mem_of_find?_eq_some hHandle

/-
  What every call keeps: tended contexts, and handles for one
  card that are bound to it.
-/
structure CapiState.Sound (s : CapiState) : Prop where
  tended : ∀ c, (s.ctxs c).Tended
  bound :
    ∀ ttx ∈ s.live, ∀ c, ttx.cardNo = some c →
      ttx.ctx = some c ∧
        ∀ d, ttx.attached d = decide (d = c)

/- What an open does to each context. -/
theorem CapiState.Sound.inc
    (hSound : s.Sound)
    (call : OpenCall)
    (d : Card) :
    ClientInc (s.ctxs d) call.mode (call.attempts d)
      (call.after s.ctxs d).1 (call.after s.ctxs d).2 :=
  clientInc_outcome (hSound.tended d)

theorem chooseCard_single
    {ctxs : Card → CardCtx} {ttx : Ttx} {c : Card}
    (hNo : ttx.cardNo = some c) :
    chooseCard ctxs ttx = ttx := by
  simp [chooseCard, hNo]

theorem chooseCard_cardNo
    (ctxs : Card → CardCtx)
    (ttx : Ttx) :
    (chooseCard ctxs ttx).cardNo = ttx.cardNo := by
  unfold chooseCard
  cases hNo : ttx.cardNo with
  | none => rfl
  | some c => exact hNo

theorem chooseCard_attached
    (ctxs : Card → CardCtx)
    (ttx : Ttx) :
    (chooseCard ctxs ttx).attached = ttx.attached := by
  unfold chooseCard
  cases ttx.cardNo with
  | none => rfl
  | some c => rfl

/- The handles behind an execute. -/
theorem mem_executed
    {ttx t : Ttx}
    (hMem : t ∈ (ddcbExecute s ttx).2.live) :
    t ∈ s.live ∨
      (ttx ∈ s.live ∧ t = chooseCard s.ctxs ttx) := by
  rcases List.mem_map.mp hMem with ⟨t', ht', hEq⟩
  by_cases hSame : t' = ttx
  · rw [if_pos hSame] at hEq
    exact Or.inr ⟨hSame ▸ ht', hEq.symm⟩
  · rw [if_neg hSame] at hEq
    exact Or.inl (hEq ▸ ht')

theorem clientDec_tended
    {ctx : CardCtx}
    (hTended : ctx.Tended) :
    (clientDec ctx).Tended :=
  ⟨hTended.tid, hTended.ring, hTended.queue, hTended.loop⟩

/- The contexts behind a close. -/
theorem cardClose_ctxs
    (s : CapiState)
    (ttx : Ttx)
    (d : Card) :
    (cardClose s ttx).ctxs d =
      if ttx.cardNo = none ∨ ttx.cardNo = some d then
        clientDec (s.ctxs d)
      else
        s.ctxs d := by
  unfold cardClose
  cases hNo : ttx.cardNo with
  | none => simp
  | some c =>
      by_cases hd : d = c
      · subst hd
        simp
      · rw [if_neg (by simpa using Ne.symm hd)]
        exact Function.update_of_ne hd _ _

theorem capiStep_sound
    (hSound : s.Sound)
    (hStep : capiStep s event s') :
    s'.Sound := by
  cases capiStep_outcome hStep with
  | refused _ _ => exact hSound
  | @failed call c _ _ _ =>
      refine ⟨fun d => ?_, hSound.bound⟩
      by_cases hd : d = c
      · subst hd
        simp only [Function.update_self]
        exact (hSound.inc call d).tended (hSound.tended d)
      · simp only [Function.update_of_ne hd]
        exact hSound.tended d
  | @single call c ttx _ _ _ hNo hCtx hAttached =>
      refine ⟨fun d => ?_, fun t ht c' hc' => ?_⟩
      · by_cases hd : d = c
        · subst hd
          simp only [Function.update_self]
          exact (hSound.inc call d).tended (hSound.tended d)
        · simp only [Function.update_of_ne hd]
          exact hSound.tended d
      · rcases List.mem_cons.mp ht with rfl | ht
        · rw [hNo] at hc'
          cases hc'
          exact ⟨hCtx, hAttached⟩
        · exact hSound.bound t ht c' hc'
  | @redundant call ttx _ _ hNo _ _ =>
      refine ⟨fun d => ?_, fun t ht c' hc' => ?_⟩
      · exact (hSound.inc call d).tended (hSound.tended d)
      · rcases List.mem_cons.mp ht with rfl | ht
        · rw [hNo] at hc'
          cases hc'
        · exact hSound.bound t ht c' hc'
  | nothing => exact hSound
  | @closed addr ttx hHandle =>
      refine ⟨fun d => ?_, fun t ht => ?_⟩
      · rw [cardClose_ctxs]
        split
        · exact clientDec_tended (hSound.tended d)
        · exact hSound.tended d
      · exact hSound.bound t (List.mem_of_mem_erase ht)
  | @executed addr ttx hHandle =>
      refine ⟨hSound.tended, fun t ht c hc => ?_⟩
      rcases mem_executed ht with hOld | ⟨hOld, rfl⟩
      · exact hSound.bound t hOld c hc
      · rw [chooseCard_cardNo] at hc
        rw [chooseCard_single hc]
        exact hSound.bound ttx hOld c hc
  | @chosen c hTid hAfu _ =>
      refine ⟨fun d => ?_, hSound.bound⟩
      by_cases hd : d = c
      · subst hd
        have hTended := hSound.tended d
        simp only [Function.update_self]
        exact ⟨hTended.tid, hTended.ring, hTended.queue,
          fun _ => hAfu⟩
      · simp only [Function.update_of_ne hd]
        exact hSound.tended d

theorem cardCtxInit_tended : CardCtx.init.Tended :=
  ⟨by decide, by decide, fun _ h => (nomatch h), by decide⟩

theorem init_sound : CapiState.init.Sound :=
  ⟨fun _ => cardCtxInit_tended,
    fun _ h => (List.not_mem_nil h).elim⟩

end Outcome

end Capi.Cards
