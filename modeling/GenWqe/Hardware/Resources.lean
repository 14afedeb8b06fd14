import GenWqe.Hardware.Buffering
import GenWqe.Hardware.InflateRuns
import GenWqe.Lib.Ledger

/-
  What a stream of the hardware library holds: its
  `struct hw_state`, a handle, buffers and a workspace; and
  how setting up, copying and ending streams get and return
  these, on all ways through their error labels.

  Key definitions include:
    * `Card`, `ZedcDev`, `HwStream`
    * `zedcMemalign`, `zedcFree`
    * `hwOpen`, `hwClose`
    * `hDeflateInit2`, `hDeflateCopy`, `hDeflateEnd`
    * `hInflateInit2`, `hInflateEnd`
-/

------------------------------------------------------------
-- Cards
------------------------------------------------------------

namespace Lifecycle

open Zedc Ledger

/- `DDCB_TYPE_GENWQE` and `DDCB_TYPE_CAPI` -/
inductive CardType where
  | genwqe
  | capi
  deriving DecidableEq

/-
  Memory of `malloc`, `calloc` and `memalign`, a mapping of
  the driver's, and what an accelerator's `card_open` returns.
-/
inductive Kind where
  | heap
  | driver (size : Nat)
  | card
  deriving DecidableEq

abbrev Held := Multiset (Nat × Kind)

abbrev M := StateM (Ledger Kind)

/- `struct card_dev_t` -/
structure Card where
  self : Nat
  data : Nat
  cardNo : Int
  cardType : CardType

/- `struct zedc_dev_t` -/
structure ZedcDev where
  self : Nat
  card : Card

/-
  What flags, environment variables and the registered
  accelerators decide.
-/
structure HwConfig where
  cacheHandles : Bool
  flatDeflate : Bool
  flatInflate : Bool
  ibufTotal : Nat
  obufTotal : Nat
  pageSize : Nat
  registered : List CardType

/- The outcomes of `malloc`, `calloc` and `card_open`. -/
structure OpenEnv where
  zedc : Bool
  card : Bool
  opened : Bool

/- `ACCEL_REDUNDANT` -/
def accelRedundant : Int := -1

/- `accel_open` -/
def accelOpen
    (cfg : HwConfig)
    (env : OpenEnv)
    (cardNo : Int)
    (cardType : CardType) : M (Option Card) := do
  if env.card then
    let self ← acquire .heap
    -- find_accelerator
    if cardType ∈ cfg.registered ∧ env.opened then
      let data ← acquire .card
      return some ⟨self, data, cardNo, cardType⟩
    else
      release self .heap
      return none
  else return none

/- `accel_close` -/
def accelClose (card : Card) : M Unit := do
  use card.self
  release card.data .card
  release card.self .heap

/- `zedc_open` -/
def zedcOpen
    (cfg : HwConfig)
    (env : OpenEnv)
    (cardNo : Int)
    (cardType : CardType) : M (Option ZedcDev) := do
  if env.zedc then
    let self ← acquire .heap
    let card ← accelOpen cfg env cardNo cardType
    match card with
    | none => do
        release self .heap
        return none
    | some card => return some ⟨self, card⟩
  else return none

/- `zedc_close` -/
def zedcClose (zedc : ZedcDev) : M Unit := do
  use zedc.self
  accelClose zedc.card
  release zedc.self .heap

------------------------------------------------------------
-- Memory
------------------------------------------------------------

/-
  `accel_malloc`; `genwqe_card_malloc` maps memory, but for a
  redundant card, and the one of CAPI is `memalign`.
-/
def accelMalloc
    (card : Card) (size : Nat) (ok : Bool) :
    M (Option Nat) := do
  use card.self
  match card.cardType with
  | .genwqe => do
      use card.data
      if card.cardNo ≠ accelRedundant ∧ ok then
        let ptr ← acquire (.driver size)
        return some ptr
      else return none
  | .capi =>
      if ok then
        let ptr ← acquire .heap
        return some ptr
      else return none

/- `accel_free` -/
def accelFree (card : Card) (ptr size : Nat) : M Unit := do
  use card.self
  match card.cardType with
  | .genwqe => do
      use card.data
      if card.cardNo ≠ accelRedundant then
        release ptr (.driver size)
      else return ()
  | .capi => release ptr .heap

/- `zedc_memalign`; `flat` is `DDCB_DMA_TYPE_FLAT`. -/
def zedcMemalign
    (zedc : ZedcDev) (size : Nat) (flat ok : Bool) :
    M (Option Nat) := do
  if flat then
    use zedc.self
    accelMalloc zedc.card size ok
  else if ok then
    let ptr ← acquire .heap
    return some ptr
  else return none

/- `zedc_free` -/
def zedcFree
    (zedc : ZedcDev)
    (ptr : Option Nat)
    (size : Nat)
    (flat : Bool) : M Unit := do
  match ptr with
  | none => return ()
  | some ptr =>
      if flat then
        use zedc.self
        accelFree zedc.card ptr size
      else release ptr .heap

/- `sizeof(struct zedc_wsp)` -/
def wspSize : Nat := 2 * zedcDictLen + zedcTreeLen

------------------------------------------------------------
-- Streams
------------------------------------------------------------

/-
  `struct hw_state`, its pointers: the buffers, the handle and
  the workspace of its `zedc_stream`. The flags are those of
  `dma_type`.
-/
structure HwStream where
  self : Nat
  cardNo : Int
  cardType : CardType
  device : ZedcDev
  flatIn : Bool
  flatOut : Bool
  flatWs : Bool
  ibufTotal : Nat
  ibufBase : Option Nat
  obufTotal : Nat
  obufBase : Option Nat
  wsp : Option Nat

/- `zedc_alloc_workspace` -/
def zedcAllocWorkspace (s : HwStream) (ok : Bool) :
    M (Option Nat) :=
  zedcMemalign s.device wspSize s.flatWs ok

/- `zedc_free_workspace` -/
def zedcFreeWorkspace (s : HwStream) : M HwStream := do
  zedcFree s.device s.wsp wspSize s.flatWs
  return { s with wsp := none }

/- The handles in `zedc_cards`. -/
abbrev Cards := Fin 129 → Option ZedcDev

/- Where in `zedc_cards` the handle of a card is kept. -/
def slot (cardNo : Int) : Option (Fin 129) :=
  if cardNo = accelRedundant then some 128
  else if h : 0 ≤ cardNo ∧ cardNo < 128 then
    some ⟨cardNo.toNat, by omega⟩
  else none

/- `__zedc_open` -/
def hwOpen
    (cfg : HwConfig)
    (cards : Cards)
    (env : OpenEnv)
    (cardNo : Int)
    (cardType : CardType) :
    M (Option ZedcDev × Cards) := do
  if cfg.cacheHandles then
    match slot cardNo with
    | none => return (none, cards)
    | some i =>
      match cards i with
      | some zedc => return (some zedc, cards)
      | none => do
          let zedc ← zedcOpen cfg env cardNo cardType
          return (zedc, Function.update cards i zedc)
  else
    let zedc ← zedcOpen cfg env cardNo cardType
    return (zedc, cards)

/- `__zedc_close` -/
def hwClose (cfg : HwConfig) (zedc : ZedcDev) : M Unit :=
  if cfg.cacheHandles then return () else zedcClose zedc

/- From the label `close_card` on. -/
def closeCard (cfg : HwConfig) (s : HwStream) : M Unit := do
  hwClose cfg s.device
  release s.self .heap

/- From the label `free_ibuf` on. -/
def freeIbuf (cfg : HwConfig) (s : HwStream) : M Unit := do
  zedcFree s.device s.ibufBase s.ibufTotal s.flatIn
  closeCard cfg s

/- From the label `free_obuf` on. -/
def deflateFreeObuf
    (cfg : HwConfig) (s : HwStream) : M Unit := do
  zedcFree s.device s.obufBase s.obufTotal s.flatOut
  freeIbuf cfg s

/- The same label of `h_inflateInit2_`. -/
def inflateFreeObuf
    (cfg : HwConfig) (s : HwStream) : M Unit := do
  zedcFree s.device s.obufBase s.obufTotal s.flatOut
  closeCard cfg s

------------------------------------------------------------
-- Setting Up
------------------------------------------------------------

/- The card that is asked for, and the format. -/
structure InitArgs where
  cardNo : Int
  cardType : CardType
  windowBits : Int

/- What is got, and whether the card is one for `zedc`. -/
structure InitEnv where
  hwState : Bool
  device : OpenEnv
  ibuf : Bool
  obuf : Bool
  wsp : Bool
  zedc : Bool

/- A code, the stream where there is one, and the handles. -/
structure StreamRet where
  rc : Rc
  strm : Option HwStream
  cards : Cards

/- `zedc_deflateInit2` and `zedc_inflateInit2` -/
def zedcInit2
    (env : InitEnv) (windowBits : Int) (s : HwStream) :
    M (Rc × HwStream) := do
  -- is_zedc
  use s.device.self
  use s.device.card.self
  if env.zedc then
    let wsp ← zedcAllocWorkspace s env.wsp
    match wsp with
    | none => return (.memError, s)
    | some wsp =>
      match Hardware.formatInit windowBits with
      | none => do
          let s ← zedcFreeWorkspace { s with wsp := some wsp }
          return (.dataError, s)
      | some _ => return (.ok, { s with wsp := some wsp })
  else return (.errIllegalAppid, s)

/- A stream with a handle, and nothing else. -/
def bareStream
    (self : Nat)
    (args : InitArgs)
    (zedc : ZedcDev)
    (flatIn flatOut flatWs : Bool) : HwStream where
  self := self
  cardNo := args.cardNo
  cardType := args.cardType
  device := zedc
  flatIn := flatIn
  flatOut := flatOut
  flatWs := flatWs
  ibufTotal := 0
  ibufBase := none
  obufTotal := 0
  obufBase := none
  wsp := none

/- The end of setting up, or the label `free_obuf`. -/
def finishSetUp
    (freeObuf : HwStream → M Unit)
    (env : InitEnv)
    (windowBits : Int)
    (s : HwStream) : M (Rc × Option HwStream) := do
  let (rc, s) ← zedcInit2 env windowBits s
  if rc = .ok then return (.ok, some s)
  else
    freeObuf s
    return (rc, none)

/- The last part of `h_deflateInit2_`. -/
def hDeflateFinish (cfg : HwConfig) :=
  finishSetUp (deflateFreeObuf cfg)

/- The last part of `h_inflateInit2_`. -/
def hInflateFinish (cfg : HwConfig) :=
  finishSetUp (inflateFreeObuf cfg)

/- `h_deflateInit2_` with its handle. -/
def hDeflateSetUp
    (cfg : HwConfig)
    (args : InitArgs)
    (env : InitEnv)
    (self : Nat)
    (zedc : ZedcDev) : M (Rc × Option HwStream) := do
  let flat := cfg.flatDeflate && cfg.ibufTotal != 0
  let s := bareStream self args zedc flat flat cfg.flatDeflate
  if cfg.ibufTotal = 0 then
    hDeflateFinish cfg env args.windowBits s
  else
    let ibuf ←
      zedcMemalign zedc cfg.ibufTotal s.flatIn env.ibuf
    match ibuf with
    | none => do
        closeCard cfg s
        return (.memError, none)
    | some ibuf => do
        let s :=
          { s with
            ibufTotal := cfg.ibufTotal
            ibufBase := some ibuf }
        let total :=
          Hardware.hDeflateBound cfg.pageSize cfg.ibufTotal
        let obuf ← zedcMemalign zedc total s.flatOut env.obuf
        match obuf with
        | none => do
            freeIbuf cfg s
            return (.memError, none)
        | some obuf =>
            hDeflateFinish cfg env args.windowBits
              { s with
                obufTotal := total, obufBase := some obuf }

/-
  What the two functions have in common; the rest of them is
  given a handle.
-/
def hInit2
    (setUp : Nat → ZedcDev → M (Rc × Option HwStream))
    (cfg : HwConfig)
    (args : InitArgs)
    (env : InitEnv)
    (cards : Cards) : M StreamRet := do
  if env.hwState then
    let self ← acquire .heap
    let (zedc, cards) ←
      hwOpen cfg cards env.device args.cardNo args.cardType
    match zedc with
    | none => do
        release self .heap
        return ⟨.streamError, none, cards⟩
    | some zedc => do
        let (rc, s) ← setUp self zedc
        return ⟨rc, s, cards⟩
  else return ⟨.memError, none, cards⟩

/- `h_deflateInit2_` -/
def hDeflateInit2
    (cfg : HwConfig)
    (args : InitArgs)
    (env : InitEnv) : Cards → M StreamRet :=
  hInit2 (hDeflateSetUp cfg args env) cfg args env

/- `h_inflateInit2_` with its handle. -/
def hInflateSetUp
    (cfg : HwConfig)
    (args : InitArgs)
    (env : InitEnv)
    (self : Nat)
    (zedc : ZedcDev) : M (Rc × Option HwStream) := do
  let s :=
    bareStream self args zedc false
      (cfg.flatInflate && cfg.obufTotal != 0) cfg.flatInflate
  if cfg.obufTotal = 0 then
    hInflateFinish cfg env args.windowBits s
  else
    let obuf ←
      zedcMemalign zedc cfg.obufTotal s.flatOut env.obuf
    match obuf with
    | none => do
        closeCard cfg s
        return (.memError, none)
    | some obuf =>
        hInflateFinish cfg env args.windowBits
          { s with
            obufTotal := cfg.obufTotal
            obufBase := some obuf }

/- `h_inflateInit2_` -/
def hInflateInit2
    (cfg : HwConfig)
    (args : InitArgs)
    (env : InitEnv) : Cards → M StreamRet :=
  hInit2 (hInflateSetUp cfg args env) cfg args env

------------------------------------------------------------
-- Copying and Ending
------------------------------------------------------------

/- `free` -/
def free (ptr : Option Nat) : M Unit :=
  match ptr with
  | none => return ()
  | some ptr => release ptr .heap

/- What a copy gets. -/
structure CopyEnv where
  hwState : Bool
  wsp : Bool
  device : OpenEnv
  ibuf : Bool
  obuf : Bool

/- A buffer of the copy; one without a size is not copied. -/
def copyBuffer
    (zedc : ZedcDev)
    (total : Nat)
    (base : Option Nat)
    (flat ok : Bool) : M (Option (Option Nat)) := do
  if total = 0 then return some base
  else
    let ptr ← zedcMemalign zedc total flat ok
    return ptr.map some

/- `h_deflateCopy` with the handle of the copy. -/
def hDeflateCopyBuffers
    (cfg : HwConfig) (env : CopyEnv) (d : HwStream) :
    M (Rc × Option HwStream) := do
  let ibuf ←
    copyBuffer d.device d.ibufTotal d.ibufBase d.flatIn
      env.ibuf
  match ibuf with
  | none => do
      -- err_zedc_close
      closeCard cfg d
      return (.memError, none)
  | some ibuf => do
      let obuf ←
        copyBuffer d.device d.obufTotal d.obufBase d.flatOut
          env.obuf
      match obuf with
      | none => do
          -- err_free_ibuf_base, whatever memory it is
          free ibuf
          closeCard cfg d
          return (.memError, none)
      | some obuf => do
          let d := { d with ibufBase := ibuf, obufBase := obuf }
          return (.ok, some d)

/- `h_deflateCopy`; no error label frees the workspace. -/
def hDeflateCopy
    (cfg : HwConfig)
    (env : CopyEnv)
    (s : HwStream)
    (cards : Cards) : M StreamRet := do
  if env.hwState then
    let self ← acquire .heap
    -- zedc_deflateCopy, on the handle of the source
    let wsp ← zedcAllocWorkspace s env.wsp
    match wsp with
    | none => do
        release self .heap
        return ⟨.memError, none, cards⟩
    | some wsp => do
        let (zedc, cards) ←
          hwOpen cfg cards env.device s.cardNo s.cardType
        match zedc with
        | none => do
            release self .heap
            return ⟨.streamError, none, cards⟩
        | some zedc => do
            let (rc, d) ← hDeflateCopyBuffers cfg env
              { s with
                self := self, wsp := some wsp, device := zedc }
            return ⟨rc, d, cards⟩
  else return ⟨.memError, none, cards⟩

/- `h_deflateEnd` -/
def hDeflateEnd (cfg : HwConfig) (s : HwStream) : M Unit := do
  use s.self
  let s ← zedcFreeWorkspace s
  deflateFreeObuf cfg s

/- `h_inflateEnd` -/
def hInflateEnd (cfg : HwConfig) (s : HwStream) : M Unit := do
  use s.self
  let s ← zedcFreeWorkspace s
  inflateFreeObuf cfg s

/- `zedc_hw_done`; the closed handles stay in the table. -/
def zedcHwDone (cfg : HwConfig) (cards : Cards) : M Unit := do
  if cfg.cacheHandles then
    (List.finRange 129).forM fun i =>
      match cards i with
      | none => return ()
      | some zedc => zedcClose zedc
  else return ()

end Lifecycle
