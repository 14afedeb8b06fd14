import GenWqe.Session.Reset

/-
  `h_deflateCopy`: the buffers of a stream lie in memory, and
  are copied into new ones. Behind it source and copy go on
  like the stream that was copied, in any order of calls.

  Key definitions include:
    * `Memory`, `Placed`
    * `zedcDeflateCopy`, `hDeflateCopy`
    * `Used`
    * `Copies`, `copiesShow`

  Main results:
    * `hDeflateCopy_spec`
    * `used_kept`
    * `copies_step`
    * `hDeflateCopy_bisimilar`
-/

------------------------------------------------------------
-- Streams in Memory
------------------------------------------------------------

namespace Session

open Zedc Hardware

/- What was allocated, by number, and its contents. -/
structure Memory where
  ibuf : Nat → ByteMem
  obuf : Nat → ByteMem
  wsp : Nat → Bool → ByteMem

/-
  A stream whose buffers lie in memory: `st` are the structs,
  in which the buffers only count with their fill levels, and
  the others are the pointers `ibuf_base`, `obuf_base` and
  `wsp`.
-/
structure Placed where
  st : HDeflate
  ibufBase : Option Nat
  obufBase : Option Nat
  wsp : Nat

/- The bytes in a buffer; a stream without it has its own. -/
def readBuf
    (bufs : Nat → ByteMem)
    (base : Option Nat)
    (own : List UInt8) : List UInt8 :=
  match base with
  | none => own
  | some b => (bufs b).window 0 own.length

def writeBuf
    (bufs : Nat → ByteMem)
    (base : Option Nat)
    (bs : List UInt8) : Nat → ByteMem :=
  match base with
  | none => bufs
  | some b => Function.update bufs b ((bufs b).store 0 bs)

/- The stream with what its buffers hold. -/
def Placed.load (m : Memory) (p : Placed) : HDeflate :=
  { p.st with
    s :=
      { p.st.s with
        h := { p.st.s.h with dict := m.wsp p.wsp }
        ibuf := readBuf m.ibuf p.ibufBase p.st.s.ibuf
        obuf :=
          { p.st.s.obuf with
            buf :=
              readBuf m.obuf p.obufBase
                p.st.s.obuf.buf } } }

/- Its buffers written back. -/
def Placed.store
    (m : Memory) (p : Placed) (st : HDeflate) :
    Memory × Placed :=
  ({ ibuf := writeBuf m.ibuf p.ibufBase st.s.ibuf
     obuf := writeBuf m.obuf p.obufBase st.s.obuf.buf
     wsp := Function.update m.wsp p.wsp st.s.h.dict },
    { p with st := st })

/- The stream in memory; buffers without a size are NULL. -/
structure Placed.Holds
    (m : Memory) (p : Placed) (st : HDeflate) : Prop where
  load : p.load m = st
  ibuf : st.s.ibufTotal = 0 ↔ p.ibufBase = none
  obuf : st.s.obuf.total = 0 ↔ p.obufBase = none

/- Two streams that share no memory they use. -/
structure Apart (p q : Placed) : Prop where
  ibuf : ∀ b, p.ibufBase = some b → q.ibufBase ≠ some b
  obuf : ∀ b, p.obufBase = some b → q.obufBase ≠ some b
  wsp : p.wsp ≠ q.wsp

theorem Apart.symm
    {p q : Placed} (hApart : Apart p q) : Apart q p :=
  ⟨fun b hq hp => hApart.ibuf b hp hq,
    fun b hq hp => hApart.obuf b hp hq,
    fun hEq => hApart.wsp hEq.symm⟩

section Buffers

variable {bufs : Nat → ByteMem} {base base' : Option Nat}

theorem readBuf_writeBuf (bs : List UInt8) :
    readBuf (writeBuf bufs base bs) base bs = bs := by
  cases base with
  | none => rfl
  | some b =>
      unfold readBuf writeBuf
      simp only [Function.update_self]
      exact ByteMem.window_store_same _ _ _

theorem readBuf_writeBuf_of_apart
    (hApart : ∀ b, base = some b → base' ≠ some b)
    (bs own : List UInt8) :
    readBuf (writeBuf bufs base bs) base' own =
      readBuf bufs base' own := by
  cases base with
  | none => rfl
  | some b =>
      cases base' with
      | none => rfl
      | some b' =>
          have hOther : b' ≠ b := by
            rintro rfl
            exact hApart b' rfl rfl
          unfold readBuf writeBuf
          simp only [Function.update_of_ne hOther]

end Buffers

section Placed

variable {m : Memory} {p q : Placed}

/- What was written back is there. -/
theorem load_store (st : HDeflate) :
    (p.store m st).2.load (p.store m st).1 = st := by
  unfold Placed.load Placed.store
  simp only [readBuf_writeBuf, Function.update_self]

/- The other stream does not notice. -/
theorem load_store_of_apart
    (hApart : Apart p q) (st : HDeflate) :
    q.load (p.store m st).1 = q.load m := by
  unfold Placed.load Placed.store
  simp only [readBuf_writeBuf_of_apart hApart.ibuf,
    readBuf_writeBuf_of_apart hApart.obuf,
    Function.update_of_ne hApart.wsp.symm]

end Placed

------------------------------------------------------------
-- The Copy
------------------------------------------------------------

/-
  What `h_deflateCopy` gets: memory for `hw_state`, the
  workspace and the buffers, and a card.
-/
structure CopyAllocs where
  hwState : Bool
  wsp : Option Nat
  device : Bool
  ibuf : Option Nat
  obuf : Option Nat

/- Allocated memory is not in use by the source. -/
structure CopyAllocs.Fresh
    (alloc : CopyAllocs) (p : Placed) : Prop where
  ibuf : ∀ b, alloc.ibuf = some b → p.ibufBase ≠ some b
  obuf : ∀ b, alloc.obuf = some b → p.obufBase ≠ some b
  wsp : alloc.wsp ≠ some p.wsp

/-
  `zedc_deflateCopy`: of a zeroed workspace the page in use is
  copied.
-/
def zedcDeflateCopy
    (source dest : Nat) (page : Bool) (m : Memory) :
    Memory :=
  { m with
    wsp :=
      Function.update m.wsp dest fun p i =>
        if p = page ∧ i < zedcDictLen then m.wsp source p i
        else 0 }

/- `memcpy` of a part of a buffer to the same place. -/
def copyBuf
    (source : Option Nat)
    (dest off len : Nat)
    (bufs : Nat → ByteMem) : Nat → ByteMem :=
  match source with
  | none => bufs
  | some b =>
      Function.update bufs dest
        ((bufs dest).store off ((bufs b).window off len))

/- The input buffer of the copy, up to its fill level. -/
def copyIbuf
    (alloc : CopyAllocs) (p : Placed) (m : Memory) :
    Option (Memory × Option Nat) :=
  if p.st.s.ibufTotal = 0 then some (m, p.ibufBase)
  else
    alloc.ibuf.map fun b =>
      ({ m with
          ibuf :=
            copyBuf p.ibufBase b 0 p.st.s.ibuf.length
              m.ibuf },
        some b)

/- The output buffer of the copy, from `obuf_next` on. -/
def copyObuf
    (alloc : CopyAllocs) (p : Placed) (m : Memory) :
    Option (Memory × Option Nat) :=
  if p.st.s.obuf.total = 0 then some (m, p.obufBase)
  else
    alloc.obuf.map fun b =>
      ({ m with
          obuf :=
            copyBuf p.obufBase b p.st.s.obuf.next
              (p.st.s.obuf.total - p.st.s.obuf.avail)
              m.obuf },
        some b)

/-
  `h_deflateCopy`, on a destination that `deflateCopy` made
  with the `z_stream` of the source.
-/
def hDeflateCopy
    (alloc : CopyAllocs)
    (m : Memory)
    (p : Placed) : Rc × Option (Memory × Placed) :=
  if alloc.hwState = false then (.memError, none)
  else
    match alloc.wsp with
    | none => (.memError, none)
    | some wsp =>
      let m := zedcDeflateCopy p.wsp wsp p.st.s.h.wspPage m
      if alloc.device = false then (.streamError, none)
      else
        match copyIbuf alloc p m with
        | none => (.memError, none)
        | some (m, ibufBase) =>
          match copyObuf alloc p m with
          | none => (.memError, none)
          | some (m, obufBase) =>
            (.ok,
              some
                (m,
                  { st := p.st
                    ibufBase := ibufBase
                    obufBase := obufBase
                    wsp := wsp }))

section Copied

variable {alloc : CopyAllocs} {m m₁ : Memory} {p : Placed}

/- What copying one buffer makes of the memory. -/
structure BufCopied
    (source base : Option Nat)
    (own : List UInt8)
    (off : Nat)
    (bufs bufs' : Nat → ByteMem) : Prop where
  copy :
    (readBuf bufs' base own).drop off =
      (readBuf bufs source own).drop off
  kept : readBuf bufs' source own = readBuf bufs source own
  apart : ∀ b, source = some b → base ≠ some b

theorem copyBuf_copied
    {bufs : Nat → ByteMem}
    {b c : Nat}
    {own : List UInt8}
    {off len : Nat}
    (hOther : b ≠ c)
    (hLen : len = own.length - off) :
    BufCopied (some b) (some c) own off bufs
      (copyBuf (some b) c off len bufs) := by
  have hStored :
      copyBuf (some b) c off len bufs c =
        (bufs c).store off ((bufs b).window off len) := by
    unfold copyBuf
    simp only [Function.update_self]
  have hSame :
      copyBuf (some b) c off len bufs b = bufs b := by
    unfold copyBuf
    simp only [Function.update_of_ne hOther]
  constructor
  · unfold readBuf
    simp only [hStored, ByteMem.drop_window, Nat.zero_add]
    have hBack :=
      ByteMem.window_store_same (bufs c) off
        ((bufs b).window off len)
    rw [ByteMem.length_window, hLen] at hBack
    rw [hLen]
    exact hBack
  · unfold readBuf
    simp only [hSame]
  · rintro _ hIs hEq
    cases hIs
    cases hEq
    exact hOther rfl

/- A buffer that is NULL stays so. -/
theorem nullBuf_copied
    (own : List UInt8) (off : Nat) (bufs : Nat → ByteMem) :
    BufCopied none none own off bufs bufs :=
  ⟨rfl, rfl, nofun⟩

theorem copyIbuf_copied
    {base : Option Nat}
    (hNull : p.st.s.ibufTotal = 0 ↔ p.ibufBase = none)
    (hFresh : alloc.Fresh p)
    (hCopy : copyIbuf alloc p m = some (m₁, base)) :
    m₁ = { m with ibuf := m₁.ibuf } ∧
      BufCopied p.ibufBase base p.st.s.ibuf 0 m.ibuf
        m₁.ibuf := by
  unfold copyIbuf at hCopy
  split at hCopy
  · rename_i hZero
    cases hCopy
    rw [hNull.mp hZero]
    exact ⟨rfl, nullBuf_copied _ _ _⟩
  · rename_i hSome
    cases hBase : p.ibufBase with
    | none => exact absurd (hNull.mpr hBase) hSome
    | some b =>
        rcases Option.map_eq_some_iff.mp hCopy with
          ⟨c, hAlloc, hEq⟩
        cases hEq
        have hOther : b ≠ c := by
          rintro rfl
          exact hFresh.ibuf b hAlloc hBase
        rw [hBase]
        exact ⟨rfl, copyBuf_copied hOther rfl⟩

theorem copyObuf_copied
    {base : Option Nat}
    (hNull : p.st.s.obuf.total = 0 ↔ p.obufBase = none)
    (hRoom :
      p.st.s.obuf.total - p.st.s.obuf.avail =
        p.st.s.obuf.buf.length - p.st.s.obuf.next)
    (hFresh : alloc.Fresh p)
    (hCopy : copyObuf alloc p m = some (m₁, base)) :
    m₁ = { m with obuf := m₁.obuf } ∧
      BufCopied p.obufBase base p.st.s.obuf.buf
        p.st.s.obuf.next m.obuf m₁.obuf := by
  unfold copyObuf at hCopy
  split at hCopy
  · rename_i hZero
    cases hCopy
    rw [hNull.mp hZero]
    exact ⟨rfl, nullBuf_copied _ _ _⟩
  · rename_i hSome
    cases hBase : p.obufBase with
    | none => exact absurd (hNull.mpr hBase) hSome
    | some b =>
        rcases Option.map_eq_some_iff.mp hCopy with
          ⟨c, hAlloc, hEq⟩
        cases hEq
        have hOther : b ≠ c := by
          rintro rfl
          exact hFresh.obuf b hAlloc hBase
        rw [hBase]
        exact ⟨rfl, copyBuf_copied hOther hRoom⟩

/- What a copy that succeeds did. -/
theorem hDeflateCopy_ok
    {m' : Memory}
    {q : Placed}
    (hCopy : hDeflateCopy alloc m p = (.ok, some (m', q))) :
    ∃ wsp m₁ ibufBase obufBase,
      alloc.wsp = some wsp ∧
      copyIbuf alloc p
          (zedcDeflateCopy p.wsp wsp p.st.s.h.wspPage m) =
        some (m₁, ibufBase) ∧
      copyObuf alloc p m₁ = some (m', obufBase) ∧
      q = ⟨p.st, ibufBase, obufBase, wsp⟩ := by
  unfold hDeflateCopy at hCopy
  split at hCopy
  · cases hCopy
  cases hWsp : alloc.wsp with
  | none =>
      rw [hWsp] at hCopy
      cases hCopy
  | some wsp =>
      rw [hWsp] at hCopy
      simp only at hCopy
      split at hCopy
      · cases hCopy
      cases hIbuf :
          copyIbuf alloc p
            (zedcDeflateCopy p.wsp wsp
              p.st.s.h.wspPage m) with
      | none =>
          rw [hIbuf] at hCopy
          cases hCopy
      | some copied =>
          rcases copied with ⟨m₁, ibufBase⟩
          rw [hIbuf] at hCopy
          simp only at hCopy
          cases hObuf : copyObuf alloc p m₁ with
          | none =>
              rw [hObuf] at hCopy
              cases hCopy
          | some copied =>
              rcases copied with ⟨m₂, obufBase⟩
              rw [hObuf] at hCopy
              cases hCopy
              exact ⟨wsp, m₁, ibufBase, obufBase, rfl, hIbuf,
                hObuf, rfl⟩

theorem length_readBuf
    (bufs : Nat → ByteMem)
    (base : Option Nat)
    (own : List UInt8) :
    (readBuf bufs base own).length = own.length := by
  cases base with
  | none => rfl
  | some b => exact ByteMem.length_window _ _ _

/-
  Behind a copy the source is as it was, the copy goes along
  with it, and they share nothing.
-/
theorem hDeflateCopy_spec
    {m' : Memory}
    {q : Placed}
    {st : HDeflate}
    (hHolds : p.Holds m st)
    (hRoom :
      st.s.obuf.avail + st.s.obuf.waiting.length =
        st.s.obuf.total)
    (hFresh : alloc.Fresh p)
    (hCopy : hDeflateCopy alloc m p = (.ok, some (m', q))) :
    p.load m' = st ∧ Apart p q ∧
      Alongside (Twins False) st (q.load m') := by
  rcases hHolds with ⟨hLoad, hIbufNull, hObufNull⟩
  subst hLoad
  rcases hDeflateCopy_ok hCopy with
    ⟨wsp, m₁, ibufBase, obufBase, hWsp, hIbuf, hObuf, rfl⟩
  have hWaiting :
      p.st.s.obuf.total - p.st.s.obuf.avail =
        p.st.s.obuf.buf.length - p.st.s.obuf.next := by
    have hLength :
        (p.load m).s.obuf.waiting.length =
          p.st.s.obuf.buf.length - p.st.s.obuf.next := by
      show ((readBuf _ _ _).drop _).length = _
      rw [List.length_drop, length_readBuf]
      rfl
    rw [hLength] at hRoom
    change p.st.s.obuf.avail + _ = p.st.s.obuf.total at hRoom
    omega
  rcases copyIbuf_copied hIbufNull hFresh hIbuf with
    ⟨hMem₁, hIn⟩
  rcases copyObuf_copied hObufNull hWaiting hFresh hObuf
    with ⟨hMem, hOut⟩
  have hOther : p.wsp ≠ wsp := by
    rintro rfl
    exact hFresh.wsp hWsp
  have hIbufs : m'.ibuf = m₁.ibuf := by rw [hMem]
  have hObufs : m₁.obuf = m.obuf := by
    rw [hMem₁]
    rfl
  have hPages :
      m'.wsp =
        (zedcDeflateCopy p.wsp wsp p.st.s.h.wspPage m).wsp := by
    rw [hMem, hMem₁]
  have hOwn : m'.wsp p.wsp = m.wsp p.wsp := by
    rw [hPages]
    exact Function.update_of_ne hOther _ _
  rw [hObufs] at hOut
  rw [← hIbufs] at hIn
  refine ⟨?_, ⟨hIn.apart, hOut.apart, hOther⟩, ?_⟩
  · unfold Placed.load
    rw [hIn.kept, hOut.kept, hOwn]
    rfl
  · have hCopied :
        m'.wsp wsp = fun page i =>
          if page = p.st.s.h.wspPage ∧ i < zedcDictLen then
            m.wsp p.wsp page i
          else 0 := by
      rw [hPages]
      exact Function.update_self _ _ _
    have hTwins :
        Twins False (p.load m).s.h
          (Placed.load m'
            ⟨p.st, ibufBase, obufBase, wsp⟩).s.h := by
      refine ⟨m'.wsp wsp, rfl, fun _ => Or.inl ?_, nofun⟩
      intro i hLt
      rw [hCopied]
      exact if_pos ⟨rfl, hLt⟩
    exact
      { h := hTwins
        rc := rfl
        ibufTotal := rfl
        ibufAvail := rfl
        ibuf := hIn.copy
        obufTotal := rfl
        obufAvail := rfl
        waiting := hOut.copy
        totalIn := rfl
        totalOut := rfl
        adler := rfl
        room := hRoom }

end Copied

------------------------------------------------------------
-- The Streams That Are Copied
------------------------------------------------------------

/-
  The streams of an application: a stream that is set up, one
  that was called, and the copy of one, which may be called
  and copied in turn.
-/
inductive Used
    (cfg : DeflateHwConfig)
    (windowBits strategy : Int) : HDeflate → Prop
  | setUp
      {z : ZStream}
      {st : HDeflate} :
      hDeflateInit2 cfg windowBits strategy z = some st →
      Used cfg windowBits strategy st
  | called
      {st st' : HDeflate}
      {l : HDeflateOp × Rc} :
      Used cfg windowBits strategy st →
      hDeflateOpStep st l st' →
      Used cfg windowBits strategy st'
  | copied
      {st : HDeflate}
      {alloc : CopyAllocs}
      {m m' : Memory}
      {p q : Placed} :
      Used cfg windowBits strategy st →
      p.Holds m st →
      alloc.Fresh p →
      hDeflateCopy alloc m p = (.ok, some (m', q)) →
      Used cfg windowBits strategy (q.load m')

section Used

variable {cfg : DeflateHwConfig} {windowBits strategy : Int}
variable {trace : List (HDeflateOp × Rc)} {st tw : HDeflate}

theorem HDeflateRun.used
    (hRun : HDeflateRun cfg windowBits strategy trace st) :
    Used cfg windowBits strategy st := by
  rcases hRun with ⟨z, st₀, hInit, hCalls⟩
  exact hCalls.preserves (Used cfg windowBits strategy)
    (.setUp hInit) (fun _ _ _ hUsed hStep =>
      hUsed.called hStep)

/- Twins were set up with the same options. -/
theorem SetUpAs.of_twins
    {options : DeflateConfig}
    {format : Format}
    {known : Prop}
    {h k : DeflStream}
    (hSetUp : SetUpAs options format h)
    (hTwins : Twins known h k) :
    SetUpAs options format k := by
  rcases hTwins with ⟨pages, hEq, _⟩
  exact
    ⟨((congrArg DeflStream.format hEq :)).trans
        hSetUp.format,
      ((congrArg DeflStream.dynHuffmanSupported
        hEq :)).trans hSetUp.dynHuffman,
      ((congrArg DeflStream.strategyFixed hEq :)).trans
        hSetUp.strategyFixed,
      ((congrArg DeflStream.flgCrossCheck hEq :)).trans
        hSetUp.flgCrossCheck,
      ((congrArg DeflStream.flgSkipLastDict hEq :)).trans
        hSetUp.flgSkipLastDict⟩

/- A copy keeps what runs of the source keep. -/
theorem RunKept.alongside
    {format : Format}
    (hKept : RunKept cfg format strategy st)
    (hAlong : Alongside (Twins False) st tw) :
    RunKept cfg format strategy tw := by
  have hRoom :
      tw.s.obuf.avail + tw.s.obuf.waiting.length =
        tw.s.obuf.total := by
    rw [hAlong.obufAvail, hAlong.waiting, hAlong.obufTotal]
    exact hAlong.room
  have hSetUp := hKept.along.h.2.of_twins hAlong.h
  exact
    ⟨⟨⟨rfl, hSetUp⟩, rfl, rfl, rfl, rfl, rfl, rfl, rfl, rfl,
        rfl, rfl, hRoom⟩,
      hAlong.ibufTotal.trans hKept.ibufTotal,
      hAlong.obufTotal.trans hKept.obufTotal⟩

theorem used_kept
    (hUsed : Used cfg windowBits strategy st) :
    ∃ format, RunKept cfg format strategy st := by
  induction hUsed with
  | setUp hInit =>
      rcases hDeflateRun_kept ⟨_, _, hInit, Run.start⟩ with
        ⟨format, _, hKept⟩
      exact ⟨format, hKept⟩
  | called _ hStep ih =>
      rcases ih with ⟨format, hKept⟩
      exact ⟨format, hKept.step hStep⟩
  | copied _ hHolds hFresh hCopy ih =>
      rcases ih with ⟨format, hKept⟩
      have hSpec :=
        hDeflateCopy_spec hHolds hKept.along.room hFresh
          hCopy
      exact ⟨format, hKept.alongside hSpec.2.2⟩

end Used

------------------------------------------------------------
-- Calls on Both
------------------------------------------------------------

/- The stream that was copied, or the copy. -/
inductive Which where
  | source
  | dest
  deriving DecidableEq

/- Both in memory. -/
structure Copies where
  mem : Memory
  source : Placed
  dest : Placed

/- What one of them is, with what its buffers hold. -/
def Copies.view (w : Copies) : Which → HDeflate
  | .source => w.source.load w.mem
  | .dest => w.dest.load w.mem

/- One of them written back. -/
def Copies.put (w : Copies) (st : HDeflate) : Which → Copies
  | .source =>
      let (mem, source) := w.source.store w.mem st
      { w with mem := mem, source := source }
  | .dest =>
      let (mem, dest) := w.dest.store w.mem st
      { w with mem := mem, dest := dest }

/- A call on one of them. -/
def copiesShow
    (w : Copies) (call : Which × HDeflateOp) :
    Option ((Which × HDeflateShown) × Copies) :=
  (hDeflateShow (w.view call.1) call.2).map fun ret =>
    ((call.1, ret.1), w.put ret.2 call.1)

/- Every call returns. -/
theorem hDeflateShow_returns
    (st : HDeflate) (op : HDeflateOp) :
    ∃ shown st', hDeflateShow st op = some (shown, st') := by
  have hReturns : ∃ ret, op.run st = some ret := by
    cases op with
    | deflate call =>
        exact hDeflate_returns call.flush call.env
          (call.offer st)
    | setDictionary dictionary => exact ⟨_, rfl⟩
    | setHeader head => exact ⟨_, rfl⟩
    | reset => exact ⟨_, rfl⟩
  rcases hReturns with ⟨ret, hRun⟩
  unfold hDeflateShow
  rw [hRun]
  exact ⟨_, _, rfl⟩

/- A call moves one of them and leaves the other alone. -/
theorem copies_step
    (w : Copies)
    (k : Which)
    (op : HDeflateOp)
    (hApart : Apart w.source w.dest) :
    ∃ shown w',
      copiesShow w (k, op) = some ((k, shown), w') ∧
        Apart w'.source w'.dest ∧
        hDeflateShow (w.view k) op =
          some (shown, w'.view k) ∧
        ∀ other, other ≠ k → w'.view other = w.view other := by
  rcases hDeflateShow_returns (w.view k) op with
    ⟨shown, st', hShow⟩
  have hStep :
      copiesShow w (k, op) =
        some ((k, shown), w.put st' k) := by
    unfold copiesShow
    rw [hShow]
    rfl
  refine ⟨shown, w.put st' k, hStep, ?_, ?_, ?_⟩
  · cases k <;>
      exact ⟨hApart.ibuf, hApart.obuf, hApart.wsp⟩
  · rw [hShow]
    cases k with
    | source =>
        show some (shown, st') =
          some (shown,
            (w.source.store w.mem st').2.load
              (w.source.store w.mem st').1)
        rw [load_store]
    | dest =>
        show some (shown, st') =
          some (shown,
            (w.dest.store w.mem st').2.load
              (w.dest.store w.mem st').1)
        rw [load_store]
  · intro other hOther
    cases k with
    | source =>
        cases other with
        | source => exact absurd rfl hOther
        | dest => exact load_store_of_apart hApart st'
    | dest =>
        cases other with
        | source => exact load_store_of_apart hApart.symm st'
        | dest => exact absurd rfl hOther

/-
  Behind a copy that succeeds, be the source a copy itself or
  not, in any order of calls on both, each of them shows what
  the copied stream would have shown for the calls made on it
  alone.
-/
theorem hDeflateCopy_bisimilar
    {cfg : DeflateHwConfig}
    {windowBits strategy : Int}
    {st : HDeflate}
    {alloc : CopyAllocs}
    {m m' : Memory}
    {p q : Placed}
    (hUsed : Used cfg windowBits strategy st)
    (hHolds : p.Holds m st)
    (hFresh : alloc.Fresh p)
    (hCopy : hDeflateCopy alloc m p = (.ok, some (m', q)))
    (calls : List (Which × HDeflateOp))
    (hSame :
      Admits hDeflateShow SameResponses
        (partOf .dest calls) st) :
    partOf .source (observe copiesShow calls ⟨m', p, q⟩) =
        observe hDeflateShow (partOf .source calls) st ∧
      partOf .dest (observe copiesShow calls ⟨m', p, q⟩) =
        observe hDeflateShow (partOf .dest calls) st := by
  rcases used_kept hUsed with ⟨format, hKept⟩
  rcases hDeflateCopy_spec hHolds hKept.along.room hFresh
    hCopy with ⟨hSource, hApart, hAlong⟩
  have hEach :=
    fun k =>
      @observe_interleaved _ _ _ _ _ _ copiesShow hDeflateShow
        (fun k w => Copies.view w k)
        (fun w => Apart w.source w.dest)
        copies_step ⟨m', p, q⟩ hApart calls k
  constructor
  · rw [hEach .source]
    show observe hDeflateShow _ (p.load m') = _
    rw [hSource]
  · rw [hEach .dest]
    exact (hDeflateShow_lockstep.observe_eq hAlong hSame).symm

/- A stream in the middle of its data, in memory 0. -/
def placedUsed : Memory × Placed :=
  Placed.store ⟨fun _ _ => 0, fun _ _ => 0, fun _ _ _ => 0⟩
    ⟨smallUsed, some 0, some 0, 0⟩ smallUsed

/- New memory for a copy, by its number. -/
def freshAllocs (n : Nat) : CopyAllocs where
  hwState := true
  wsp := some n
  device := true
  ibuf := some n
  obuf := some n

/- Flushes on the copy and on the source. -/
def flushBoth : List (Which × HDeflateOp) :=
  [(.dest, .deflate sixBytesCall),
    (.source, .deflate sixBytesCall)]

/- What the copy leaves. -/
def copiedUsed : Memory × Placed :=
  (hDeflateCopy (freshAllocs 1) placedUsed.1
    placedUsed.2).2.get rfl

/- What a copy of the copy leaves. -/
def copiedAgain : Memory × Placed :=
  (hDeflateCopy (freshAllocs 2) copiedUsed.1
    copiedUsed.2).2.get rfl

theorem used_copiedUsed :
    Used smallConfig 31 0 (copiedUsed.2.load copiedUsed.1) := by
  have hRun :
      HDeflateRun smallConfig 31 0
        ([] ++ [(.deflate sixBytesCall, .ok)]) smallUsed :=
    ⟨ZStream.initial, smallNew, rfl,
      Run.next Run.start rfl⟩
  have hHolds : placedUsed.2.Holds placedUsed.1 smallUsed :=
    ⟨load_store smallUsed, by decide, by decide⟩
  have hFresh : (freshAllocs 1).Fresh placedUsed.2 :=
    ⟨by decide, by decide, by decide⟩
  exact hRun.used.copied hHolds hFresh rfl

/- The copy and its own copy both go on like the copy. -/
theorem hDeflateCopy_bisimilar_used :
    partOf .source
          (observe copiesShow flushBoth
            ⟨copiedAgain.1, copiedUsed.2, copiedAgain.2⟩) =
        observe hDeflateShow [.deflate sixBytesCall]
          (copiedUsed.2.load copiedUsed.1) ∧
      partOf .dest
          (observe copiesShow flushBoth
            ⟨copiedAgain.1, copiedUsed.2, copiedAgain.2⟩) =
        observe hDeflateShow [.deflate sixBytesCall]
          (copiedUsed.2.load copiedUsed.1) := by
  have hHolds :
      copiedUsed.2.Holds copiedUsed.1
        (copiedUsed.2.load copiedUsed.1) :=
    ⟨rfl, by decide, by decide⟩
  have hFresh : (freshAllocs 2).Fresh copiedUsed.2 :=
    ⟨by decide, by decide, by decide⟩
  exact hDeflateCopy_bisimilar used_copiedUsed hHolds hFresh
    rfl flushBoth ⟨fun _ _ _ _ _ => rfl, fun _ _ _ => trivial⟩

end Session
