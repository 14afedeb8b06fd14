import GenWqe.Lib.Runs
import GenWqe.Lib.Cursor

/-
  The GenWQE card library: devices for one card and for all
  cards, the list of descriptors that the latter share, the
  health thread that checks them and the inotify thread that
  reports cards coming back.

  Key definitions include:
    * `FdNode`, `CardDev` and `Library`
    * `cardOpen`, `cardClose` and `fdGet`
    * `mhealthCheck` and `shealthCheck`
    * `inotifyHandleEvent` and `inotifyHandle`
    * `libCall` and `LibRun`
-/

namespace Libcard

------------------------------------------------------------
-- Data
------------------------------------------------------------

/- `GENWQE_OK`. -/
def genwqeOk : Int := 0

/- `GENWQE_ERRNO`: a libc call went wrong. -/
def genwqeErrno : Int := -201

/- `GENWQE_ERR_OPEN`: cannot get a handle. -/
def genwqeErrOpen : Int := -203

/- `GENWQE_ERR_EXEC_DDCB`: DDCB execution failed. -/
def genwqeErrExecDdcb : Int := -211

/- `GENWQE_CARD_REDUNDANT`: use all cards. -/
def genwqeCardRedundant : Int := -1

/- `MAX_FUNC_NUM`, the number of states kept. -/
abbrev maxFuncNum : Nat := 256

/- An index into `genwqe_state`. -/
abbrev CardNo := Fin maxFuncNum

/- A number found in the name of a device, if it is valid. -/
def cardOfInt (n : Int) : Option CardNo :=
  if h : 0 ≤ n ∧ n < maxFuncNum then
    some ⟨n.toNat, by omega⟩
  else
    none

/- `enum dev_state`; freed devices are on no list. -/
inductive DevState where
  | devAlloc
  | devHaveFd
  | devReqClose
  deriving DecidableEq, Repr

/- `enum genwqe_fd_state`. -/
inductive FdState where
  | cardClosed
  | cardOpen
  deriving DecidableEq, Repr

/- `enum inotify_ev`. -/
inductive InotifyEv where
  | inotifyIdle
  | inotifyAttrib
  deriving DecidableEq, Repr

/- `struct fd_node`, told by its address. -/
structure FdNode where
  addr : Nat
  cardNum : CardNo
  mFd : Nat
  deriving DecidableEq, Repr

/-
  `struct card_dev_t`, told by its address. `INVALID_FD` and
  the null pointer are `none`.
-/
structure CardDev where
  addr : Nat
  cardNo : Int
  devState : DevState
  mode : Int
  appId : UInt64
  fdS : Option Nat
  mFdPtr : Option Nat
  deriving DecidableEq, Repr

/- What the model uses of `struct lib_data_t`. -/
structure LibData where
  fdSCount : Int
  fdMCount : Int
  mModeSave : Int
  genwqeState : CardNo → FdState
  inotifyTid : Bool
  inotifyCard : CardNo
  inotifyEvent : InotifyEv

/-
  A call of `__genwqe_card_execute` on its way: the handle,
  the descriptor that it got, and the commands left.
-/
structure Exec where
  dev : Nat
  fd : Option Nat
  left : Nat
  deriving DecidableEq, Repr

/-
  The library in its process. `fds` are the descriptors that
  the library has open, `next` the address that `malloc`
  gives out next, `watching` says that the inotify thread
  runs. `handles` remembers what applications hold, `changes`
  counts insertions into `__fd_m_list` and removals.
-/
structure Library where
  ld : LibData
  sDevs : List CardDev
  mDevs : List CardDev
  fdMList : List FdNode
  fds : List Nat
  next : Nat
  watching : Bool
  running : List Exec
  handles : List Nat
  changes : Nat

/- The library behind `libcard_init`. -/
def Library.init : Library :=
  { ld :=
      { fdSCount := 0
        fdMCount := 0
        mModeSave := -1
        genwqeState := fun _ => .cardClosed
        inotifyTid := false
        inotifyCard := 0
        inotifyEvent := .inotifyIdle }
    sDevs := []
    mDevs := []
    fdMList := []
    fds := []
    next := 1
    watching := false
    running := []
    handles := []
    changes := 0 }

------------------------------------------------------------
-- Descriptors
------------------------------------------------------------

/-
  A descriptor for the library: the kernel gives out one that
  is not in use.
-/
def Library.openFd (s : Library) (fd : Nat) : Option Library :=
  if fd ∈ s.fds then none
  else some { s with fds := fd :: s.fds }

/- `close`. -/
def Library.closeFd (s : Library) (fd : Nat) : Library :=
  { s with fds := s.fds.erase fd }

/- Set the state of a card. -/
def Library.setState
    (s : Library)
    (card : CardNo)
    (state : FdState) : Library :=
  { s with
    ld :=
      { s.ld with
        genwqeState :=
          Function.update s.ld.genwqeState card state } }

/- Add to `fd_m_count`. -/
def Library.countFdM (s : Library) (n : Int) : Library :=
  { s with
    ld := { s.ld with fdMCount := s.ld.fdMCount + n } }

/- Add to `fd_s_count`. -/
def Library.countFdS (s : Library) (n : Int) : Library :=
  { s with
    ld := { s.ld with fdSCount := s.ld.fdSCount + n } }

/- The address in the head of `__fd_m_list`. -/
def Library.fdMHead (s : Library) : Option Nat :=
  s.fdMList.head?.map FdNode.addr

/- `__fd_m_head_all`. -/
def fdMHeadAll (s : Library) : Library :=
  { s with
    mDevs := s.mDevs.map (fun dev =>
      { dev with mFdPtr := s.fdMHead }) }

/-
  `__fd_m_add` with `__fd_m_new`: without memory the list
  stays as it is, but an empty list sets all pointers.
-/
def fdMAdd
    (s : Library)
    (fd : Nat)
    (card : CardNo)
    (alloc : Bool) : Library :=
  let new : List FdNode :=
    if alloc then [⟨s.next, card, fd⟩] else []
  let s' :=
    { s with
      fdMList := s.fdMList ++ new
      next := s.next + 1
      changes := s.changes + new.length }
  if s.fdMList = [] then fdMHeadAll s' else s'

/- `__fd_m_del`. -/
def fdMDel (s : Library) (fd : Nat) : Library :=
  { s with
    fdMList :=
      s.fdMList.eraseP (fun node => node.mFd == fd)
    changes := s.changes + 1 }

/-
  What an attempt to open a card for all devices meets, with
  whether there is memory for the new node.
-/
inductive DevOpen where
  | failed
  | opened (fd : Nat) (alloc : Bool)
  deriving DecidableEq, Repr

/- `__m_open_add`. -/
def mOpenAdd
    (s : Library)
    (card : CardNo) : DevOpen → Option (Bool × Library)
  | .failed => some (false, s)
  | .opened fd alloc =>
      (s.openFd fd).map (fun s' =>
        (true, fdMAdd s' fd card alloc))

/-
  An entry of `/dev` that passed `__genwqe_filter`: the number
  in its name, and the attempt to open it if there is one.
-/
structure DirEntry where
  cardNo : Option Int
  attempt : Option DevOpen
  deriving DecidableEq, Repr

/- The number of an entry, if it is valid. -/
def DirEntry.card (entry : DirEntry) : Option CardNo :=
  entry.cardNo.bind cardOfInt

/- The bookkeeping behind a successful open. -/
def Library.opened (s : Library) (card : CardNo) : Library :=
  (s.countFdM 1).setState card .cardOpen

/-
  One turn of the loop in `__m_open_all`. An open is
  attempted exactly if the card is closed.
-/
def mOpenEntry
    (s : Library)
    (entry : DirEntry) : Option (Nat × Library) :=
  match entry.card with
  | none =>
      if entry.attempt = none then some (0, s) else none
  | some card =>
      match s.ld.genwqeState card, entry.attempt with
      | .cardClosed, some attempt =>
          (mOpenAdd s card attempt).map (fun r =>
            if r.1 then (1, r.2.opened card) else (0, r.2))
      | .cardOpen, none => some (1, s)
      | _, _ => none

/- The loop, with the number of cards that were found. -/
def mOpenEntries
    (s : Library) :
    List DirEntry → Option (Nat × Library)
  | [] => some (0, s)
  | entry :: rest =>
      (mOpenEntry s entry).bind (fun r =>
        (mOpenEntries r.2 rest).map (fun r' =>
          (r.1 + r'.1, r'.2)))

/- `__m_open_all`; without entries `scandir` has failed. -/
def mOpenAll
    (s : Library) :
    Option (List DirEntry) → Option (Nat × Library)
  | none => some (0, s)
  | some entries => mOpenEntries s entries

------------------------------------------------------------
-- Devices
------------------------------------------------------------

/- Change the devices at an address. -/
def atDev
    (dev : Nat)
    (f : CardDev → CardDev)
    (devs : List CardDev) : List CardDev :=
  devs.map (fun d => if d.addr = dev then f d else d)

/- Change a device wherever it is. -/
def Library.update
    (s : Library)
    (dev : Nat)
    (f : CardDev → CardDev) : Library :=
  { s with
    sDevs := atDev dev f s.sDevs
    mDevs := atDev dev f s.mDevs }

/- The device at an address that was not freed. -/
def Library.dev? (s : Library) (dev : Nat) : Option CardDev :=
  (s.mDevs ++ s.sDevs).find? (fun d => d.addr = dev)

/-
  What `__inotify_create` meets: whether there is an inotify
  descriptor, whether the watch is added, and whether the
  thread starts; if not, its number is left undefined.
-/
structure WatchOpen where
  init : Bool
  addWatch : Bool
  thread : Bool
  leftTid : Bool
  deriving DecidableEq, Repr

/- `__inotify_create`. -/
def inotifyCreate (s : Library) (watch : WatchOpen) : Library :=
  if s.ld.inotifyTid then s
  else if watch.init = false ∨ watch.addWatch = false then s
  else
    { s with
      ld :=
        { s.ld with
          inotifyEvent := .inotifyIdle
          inotifyTid :=
            if watch.thread then true else watch.leftTid }
      watching := s.watching || watch.thread }

/-
  A call of `genwqe_card_open` with what it meets: memory for
  the device, the entries of `/dev` or the descriptor of the
  one card, the application id of the card, and what
  `__inotify_create` meets.
-/
structure OpenCall where
  cardNo : Int
  mode : Int
  cardAppId : UInt64
  cardAppIdMask : UInt64
  alloc : Bool
  entries : Option (List DirEntry)
  devOpen : Option Nat
  readAppId : UInt64
  watch : WatchOpen

/- The device that `__node_add` puts on its list. -/
def OpenCall.dev (call : OpenCall) (addr : Nat) : CardDev :=
  { addr := addr
    cardNo := call.cardNo
    devState := .devAlloc
    mode := call.mode
    appId := 0
    fdS := none
    mFdPtr := none }

/- `__card_check_app`. -/
def cardCheckApp (call : OpenCall) (appId : UInt64) : Bool :=
  decide
    (appId &&& call.cardAppIdMask =
      call.cardAppId &&& call.cardAppIdMask)

/- `genwqe_card_close` of a device that was not freed. -/
def cardClose (s : Library) (dev : Nat) : Library :=
  s.update dev (fun d => { d with devState := .devReqClose })

/-
  The end of `genwqe_card_open`: hand the device out if there
  is a descriptor of a card with the right application.
-/
def finishOpen
    (s : Library)
    (call : OpenCall)
    (dev : Nat)
    (fd : Option Nat) : (Option Nat × Int) × Library :=
  if fd.isSome ∧ cardCheckApp call call.readAppId then
    ((some dev, genwqeOk),
      { s.update dev (fun d =>
          { d with devState := .devHaveFd }) with
        handles := dev :: s.handles })
  else
    ((none, genwqeErrOpen), cardClose s dev)

/- `__genwqe_open_all`, with the mode that it settles on. -/
def openAll
    (s : Library)
    (call : OpenCall)
    (dev : Nat) : Option (Option Nat × Library) :=
  let s₁ :=
    if s.ld.mModeSave = -1 then
      { s with ld := { s.ld with mModeSave := call.mode } }
    else
      s.update dev (fun d =>
        { d with mode := s.ld.mModeSave })
  (mOpenAll s₁ call.entries).map (fun r =>
    if r.1 = 0 then
      (none, r.2)
    else
      let fd := r.2.fdMList.head?.map FdNode.mFd
      (fd,
        inotifyCreate
          (r.2.update dev (fun d =>
            { d with
              mFdPtr := r.2.fdMHead
              fdS := fd
              appId := call.readAppId }))
          call.watch))

/- `__genwqe_open_one`. -/
def openOne
    (s : Library)
    (call : OpenCall)
    (dev : Nat) : Option (Option Nat × Library) :=
  match call.devOpen with
  | none => some (none, s)
  | some fd =>
      (s.openFd fd).map (fun s' =>
        (some fd,
          (s'.update dev (fun d =>
            { d with
              fdS := some fd
              appId := call.readAppId })).countFdS 1))

/- `genwqe_card_open`: the handle and the error code. -/
def cardOpen
    (s : Library)
    (call : OpenCall) :
    Option ((Option Nat × Int) × Library) :=
  let addr := s.next
  if call.alloc = false then
    some ((none, genwqeErrno), s)
  else if call.cardNo = genwqeCardRedundant then
    (openAll
        { s with
          mDevs := s.mDevs ++ [call.dev addr]
          next := addr + 1 }
        call addr).map (fun r =>
      finishOpen r.2 call addr r.1)
  else
    (openOne
        { s with
          sDevs := s.sDevs ++ [call.dev addr]
          next := addr + 1 }
        call addr).map (fun r =>
      finishOpen r.2 call addr r.1)

------------------------------------------------------------
-- Selecting a Card
------------------------------------------------------------

/- The descriptor selected and the number of its card. -/
structure Selected where
  fd : Nat
  cardNum : Int
  deriving DecidableEq, Repr

/- The selection of a node of the list. -/
def FdNode.selected (node : FdNode) : Selected :=
  ⟨node.mFd, node.cardNum.val⟩

/-
  `__fd_m_get_and_inc`; `none` is the use of a node that was
  freed.
-/
def fdMGetAndInc
    (s : Library)
    (dev : CardDev) : Option (Option Selected × Library) :=
  match dev.mFdPtr with
  | none => some (none, s)
  | some ptr =>
      (turn FdNode.addr s.fdMList ptr).map (fun r =>
        (some r.1.selected,
          s.update dev.addr (fun d =>
            { d with mFdPtr := r.2 })))

/-
  `__fd_get`; `none` is the use of a device or a node that was
  freed.
-/
def fdGet
    (s : Library)
    (dev : Nat) : Option (Option Selected × Library) :=
  match s.dev? dev with
  | none => none
  | some d =>
      if d.cardNo = genwqeCardRedundant then
        fdMGetAndInc s d
      else
        some (d.fdS.map (fun fd => ⟨fd, d.cardNo⟩), s)

------------------------------------------------------------
-- The Health Thread
------------------------------------------------------------

/- `__inotify_handle`, with the attempt if there is one. -/
def inotifyHandle
    (s : Library)
    (reopen : Option DevOpen) : Option Library :=
  match s.ld.inotifyEvent, reopen with
  | .inotifyIdle, none => some s
  | .inotifyAttrib, some attempt =>
      let card := s.ld.inotifyCard
      (mOpenAdd s card attempt).map (fun r =>
        if r.1 then
          let s' := r.2.opened card
          { s' with
            ld := { s'.ld with inotifyEvent := .inotifyIdle } }
        else
          r.2)
  | _, _ => none

/- Close the descriptor of a node without any device. -/
def closeNode (s : Library) (node : FdNode) : Library :=
  (fdMDel ((s.closeFd node.mFd).setState node.cardNum
    .cardClosed) node.mFd).countFdM (-1)

/- Remove the node of a card that is no longer alive. -/
def dropNode (s : Library) (node : FdNode) : Library :=
  (((fdMHeadAll (fdMDel s node.mFd)).closeFd
    node.mFd).setState node.cardNum .cardClosed).countFdM (-1)

/-
  One turn of the loop in `__mhealth_check`; `used` tells the
  descriptors whose card is in state `GENWQE_CARD_USED`.
-/
def checkNode
    (used : Nat → Bool)
    (s : Library)
    (node : FdNode) : Library :=
  if s.ld.genwqeState node.cardNum = .cardOpen ∧
      used node.mFd = false then
    dropNode s node
  else
    s

/- Delete the devices that are to be closed. -/
def deletePending (devs : List CardDev) : List CardDev :=
  devs.filter (fun dev =>
    decide (dev.devState ≠ .devReqClose))

/- What the health thread meets. -/
structure HealthCheck where
  reopen : Option DevOpen
  used : Nat → Bool

/- `__mhealth_check` behind `__inotify_handle`. -/
def checkMulti (s : Library) (used : Nat → Bool) : Library :=
  let s' := { s with mDevs := deletePending s.mDevs }
  if s'.mDevs = [] then
    s'.fdMList.foldl closeNode s'
  else
    s'.fdMList.foldl (checkNode used) s'

/- `__mhealth_check`. -/
def mhealthCheck
    (s : Library)
    (check : HealthCheck) : Option Library :=
  (inotifyHandle s check.reopen).map (fun s' =>
    checkMulti s' check.used)

/- `__node_delete` on the list of single cards. -/
def sNodeDelete (s : Library) (dev : CardDev) : Library :=
  { s with
    sDevs := s.sDevs.filter (fun d =>
      decide (d.addr ≠ dev.addr)) }

/- Delete a device and close its descriptor. -/
def releaseDev (s : Library) (dev : CardDev) : Library :=
  match dev.fdS with
  | none => sNodeDelete s dev
  | some fd => ((sNodeDelete s dev).closeFd fd).countFdS (-1)

/- One turn of the loop in `__shealth_check`. -/
def checkDev
    (used : Nat → Bool)
    (s : Library)
    (dev : CardDev) : Library :=
  if dev.devState = .devReqClose then
    releaseDev s dev
  else
    match dev.fdS with
    | none => s
    | some fd =>
        if used fd = false then releaseDev s dev else s

/- `__shealth_check`. -/
def shealthCheck
    (s : Library)
    (used : Nat → Bool) : Library :=
  s.sDevs.foldl (checkDev used) s

/- `__fixup_fd_lists`: the single list waits for the other. -/
def fixupFdLists
    (s : Library)
    (check : HealthCheck) : Option Library :=
  if s.mDevs ≠ [] then
    mhealthCheck s check
  else if check.reopen ≠ none then
    none
  else
    some (shealthCheck s check.used)

------------------------------------------------------------
-- The Inotify Thread
------------------------------------------------------------

/- `struct inotify_event`, with the number in its name. -/
structure InotifyEvent where
  inAttrib : Bool
  len : Nat
  cardNo : Option Int
  deriving DecidableEq, Repr

/- The card of an event that is looked at. -/
def InotifyEvent.card (ie : InotifyEvent) : Option Int :=
  if ie.inAttrib ∧ 0 < ie.len then ie.cardNo else none

/-
  The body of the loop in `__inotify_handle_event`, with the
  card it puts into the slot; `none` is an access beyond
  `genwqe_state`.
-/
def inotifyHandleEvent
    (s : Library)
    (ie : InotifyEvent) : Option (Option CardNo × Library) :=
  match ie.card with
  | none => some (none, s)
  | some n =>
      (cardOfInt n).map (fun card =>
        if s.ld.genwqeState card = .cardClosed then
          (some card,
            { s with
              ld :=
                { s.ld with
                  inotifyCard := card
                  inotifyEvent := .inotifyAttrib } })
        else
          (none, s))

------------------------------------------------------------
-- Executing
------------------------------------------------------------

/-
  The way out of the `ioctl` of an execute: it is done, the
  card is busy, or it failed, in either case within the time
  for retries or not.
-/
inductive IoctlResult where
  | done
  | failed (busy timeout : Bool)
  deriving DecidableEq, Repr

/- Take an execute off those on their way. -/
def Library.leave (s : Library) (exec : Exec) : Library :=
  { s with running := s.running.erase exec }

/- Put one back. -/
def Library.goOn (s : Library) (exec : Exec) : Library :=
  { s with running := exec :: s.running }

------------------------------------------------------------
-- Steps
------------------------------------------------------------

/- What can happen next. -/
inductive Act where
  | open (call : OpenCall)
  | close (dev : Nat)
  | execute (dev : Nat) (len : Nat)
  | ioctl (exec : Exec) (result : IoctlResult)
  | finish (exec : Exec)
  | health (check : HealthCheck)
  | inotify (ie : InotifyEvent)

/-
  What comes of it. `freed` is the use of memory that was
  freed, `checked` tells the card that was to be opened again
  and `noted` the one put into the slot.
-/
inductive Answer where
  | opened (dev : Option Nat) (errCode : Int)
  | closed (rc : Int)
  | got (selected : Option Selected)
  | again
  | returned (rc : Int)
  | checked (card : Option CardNo)
  | noted (card : Option CardNo)
  | freed
  deriving DecidableEq, Repr

/- An application starts to execute a chain of commands. -/
def startExecute
    (s : Library)
    (dev len : Nat) : Answer × Library :=
  match fdGet s dev with
  | none => (.freed, s)
  | some (selected, s') =>
      (.got selected,
        s'.goOn ⟨dev, selected.map Selected.fd, len⟩)

/-
  The next `ioctl` of an execute. It succeeds on descriptors
  that are open only; on failure an execute on all cards goes
  on with the next one, and one on a busy card goes on.
-/
def stepExecute
    (s : Library)
    (exec : Exec) : IoctlResult → Option (Answer × Library)
  | .done =>
      match exec.fd, exec.left with
      | some fd, left + 1 =>
          if fd ∉ s.fds then none
          else if s.dev? exec.dev = none then
            some (.freed, s.leave exec)
          else
            some (.again,
              (s.leave exec).goOn { exec with left := left })
      | _, _ => none
  | .failed busy timeout =>
      if exec.left = 0 then none
      else
        match s.dev? exec.dev with
        | none => some (.freed, s.leave exec)
        | some d =>
            if d.cardNo = genwqeCardRedundant then
              if timeout then
                some (.returned genwqeErrExecDdcb,
                  s.leave exec)
              else
                some (match fdGet s exec.dev with
                  | none => (.freed, s.leave exec)
                  | some (selected, s') =>
                      (.got selected,
                        (s'.leave exec).goOn
                          { exec with
                            fd :=
                              selected.map Selected.fd }))
            else if busy then
              some (.again, s)
            else
              some (.returned genwqeErrExecDdcb, s.leave exec)

/- One step with its answer. -/
def libCall
    (s : Library) : Act → Option (Answer × Library)
  | .open call =>
      (cardOpen s call).map (fun r =>
        (.opened r.1.1 r.1.2, r.2))
  | .close dev =>
      if dev ∈ s.handles then
        let s' := { s with handles := s.handles.erase dev }
        match s.dev? dev with
        | none => some (.freed, s')
        | some _ => some (.closed genwqeOk, cardClose s' dev)
      else
        none
  | .execute dev len =>
      if dev ∈ s.handles then
        some (startExecute s dev len)
      else
        none
  | .ioctl exec result =>
      if exec ∈ s.running then stepExecute s exec result
      else none
  | .finish exec =>
      if exec ∈ s.running ∧ exec.left = 0 then
        some (.returned genwqeOk, s.leave exec)
      else
        none
  | .health check =>
      (fixupFdLists s check).map (fun s' =>
        (.checked
          (check.reopen.map (fun _ => s.ld.inotifyCard)), s'))
  | .inotify ie =>
      if s.watching then
        (inotifyHandleEvent s ie).map (fun r =>
          (.noted r.1, r.2))
      else
        none

/- A step with its answer. -/
abbrev LibEvent := Act × Answer

def libStep
    (s : Library)
    (event : LibEvent)
    (s' : Library) : Prop :=
  libCall s event.1 = some (event.2, s')

/- What has happened since the library was loaded. -/
abbrev LibRun (trace : List LibEvent) (s : Library) : Prop :=
  Run libStep Library.init trace s

end Libcard
