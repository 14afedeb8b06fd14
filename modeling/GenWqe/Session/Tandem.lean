import GenWqe.Lib.Lockstep
import GenWqe.Session.DeflateHw

/-
  Two hardware streams that the same calls are made on, where
  `h_deflate` cannot tell the zEDC streams behind them apart.

  Key definitions include:
    * `SameAnswer`, `Tandem`
    * `Alongside`, `InCall`
    * `HDeflateShown`, `hDeflateShow`

  Main results:
    * `hDeflate_alongside`
    * `Alongside.op`, `Alongside.step`
-/

------------------------------------------------------------
-- The Streams Behind
------------------------------------------------------------

namespace Session

open Zedc Hardware

/-
  What two calls of `zedc_deflate` return is the same, in all
  that `h_deflate` looks at, and they leave related streams.
-/
structure SameAnswer
    (Q : DeflStream → DeflStream → Prop)
    (h k : DeflStream)
    (a b : DeflRet) : Prop where
  rc : b.rc = a.rc
  nextIn : b.strm.nextIn = a.strm.nextIn
  availOut : b.strm.availOut = a.strm.availOut
  output : newOutput k b.strm = newOutput h a.strm
  next : Q a.strm b.strm

/- What `h_deflate` reads of a stream between its calls. -/
structure SameBooks (h k : DeflStream) : Prop where
  format : k.format = h.format
  crc32 : k.crc32 = h.crc32
  adler32 : k.adler32 = h.adler32
  totalIn : k.totalIn = h.totalIn
  totalOut : k.totalOut = h.totalOut

/-
  Related streams show the same in every call whose
  surroundings are admissible.
-/
structure Tandem
    (Ok : DeflateEnv → Prop)
    (Q : DeflStream → DeflStream → Prop) : Prop where
  books : ∀ h k, Q h k → SameBooks h k
  counts :
    ∀ h k totalIn totalOut, Q h k →
      Q { h with totalIn := totalIn, totalOut := totalOut }
        { k with totalIn := totalIn, totalOut := totalOut }
  call :
    ∀ (c : DeflateCall) h k, Ok c.env → Q h k →
      SameAnswer Q h k (c.ret h) (c.ret k)

------------------------------------------------------------
-- Hardware Streams
------------------------------------------------------------

/-
  Two hardware streams between calls: the buffers hold the
  same, and the free part of `obuf` is known.
-/
structure Alongside
    (Q : DeflStream → DeflStream → Prop)
    (st tw : HDeflate) : Prop where
  h : Q st.s.h tw.s.h
  rc : tw.s.rc = st.s.rc
  ibufTotal : tw.s.ibufTotal = st.s.ibufTotal
  ibufAvail : tw.s.ibufAvail = st.s.ibufAvail
  ibuf : tw.s.ibuf = st.s.ibuf
  obufTotal : tw.s.obuf.total = st.s.obuf.total
  obufAvail : tw.s.obuf.avail = st.s.obuf.avail
  waiting : tw.s.obuf.waiting = st.s.obuf.waiting
  totalIn : tw.strm.totalIn = st.strm.totalIn
  totalOut : tw.strm.totalOut = st.strm.totalOut
  adler : tw.strm.adler = st.strm.adler
  room :
    st.s.obuf.avail + st.s.obuf.waiting.length =
      st.s.obuf.total

/-
  The same within a call, behind outputs which the streams had
  before it.
-/
structure InCall
    (Q : DeflStream → DeflStream → Prop)
    (old old' : List UInt8)
    (st tw : HDeflate) : Prop
    extends Alongside Q st tw where
  nextIn : tw.strm.nextIn = st.strm.nextIn
  availOut : tw.strm.availOut = st.strm.availOut
  out :
    ∃ given,
      st.strm.out = old ++ given ∧
        tw.strm.out = old' ++ given
  nextOut : st.strm.nextOut = st.strm.out.length
  nextOut' : tw.strm.nextOut = tw.strm.out.length

/- What two rounds or calls on such streams result in. -/
def SameRound
    (Q : DeflStream → DeflStream → Prop)
    (old old' : List UInt8) :
    Sum (Rc × HDeflate) HDeflate →
      Sum (Rc × HDeflate) HDeflate → Prop :=
  Sum.LiftRel
    (fun a b => b.1 = a.1 ∧ InCall Q old old' a.2 b.2)
    (InCall Q old old')

/- A call fills the space that it takes from the buffer. -/
theorem room_ret (c : DeflateCall) (h : DeflStream) :
    (c.ret h).strm.availOut +
        (newOutput h (c.ret h).strm).length =
      c.availOut := by
  have hMoves :=
    (zedcDeflate_moves
      { h with
        nextIn := c.nextIn
        availOut := c.availOut } c.flush c.env).output_eq
  rcases hMoves with ⟨_, hLe, hAvail, _⟩
  change (newOutput h (c.ret h).strm).length ≤
    c.availOut at hLe
  change (c.ret h).strm.availOut =
    c.availOut - (newOutput h (c.ret h).strm).length at hAvail
  omega

/- The stream and the call where buffering is off. -/
def directStream (st : HDeflate) : DeflStream :=
  { st.s.h with
    totalIn := st.strm.totalIn
    totalOut := st.strm.totalOut }

def directCall
    (flush : Flush)
    (env : DeflateEnv)
    (st : HDeflate) : DeflateCall :=
  ⟨st.strm.nextIn, st.strm.availOut, flush, env⟩

section InCall

variable {Ok : DeflateEnv → Prop}
variable {Q : DeflStream → DeflStream → Prop}
variable {old old' : List UInt8} {st tw : HDeflate}

namespace InCall

theorem read
    (hIn : InCall Q old old' st tw) :
    InCall Q old old' (hReadIbuf st) (hReadIbuf tw) := by
  unfold hReadIbuf
  rw [hIn.ibufAvail, hIn.nextIn]
  split
  · exact hIn
  · exact
      { hIn with
        ibufAvail := rfl
        ibuf := by rw [hIn.ibuf]
        totalIn := by simp only [hIn.totalIn]
        nextIn := rfl }

theorem flush
    (hIn : InCall Q old old' st tw) :
    InCall Q old old' (hDeflateFlushObuf st)
      (hDeflateFlushObuf tw) := by
  rcases hFlushObuf_spec st.s.obuf st.strm hIn.nextOut with
    ⟨k, hEq, hWaiting, hSpace, hEnd⟩
  rcases hFlushObuf_spec tw.s.obuf tw.strm hIn.nextOut' with
    ⟨k', hEq', hWaiting', hSpace', hEnd'⟩
  rw [hIn.waiting] at hEq' hWaiting' hEnd'
  rw [hIn.availOut] at hSpace' hEnd'
  -- as many bytes are given out as fit and wait
  obtain rfl : k' = k := by omega
  have hRoom := hIn.room
  rcases hIn.out with ⟨given, hOut, hOut'⟩
  unfold hDeflateFlushObuf
  rw [hEq, hEq']
  exact
    { hIn with
      obufAvail := by simp only [Obuf.giveOut, hIn.obufAvail]
      waiting := by
        simp only [Obuf.waiting_giveOut, hIn.waiting]
      totalOut := by simp only [ZStream.take, hIn.totalOut]
      room := by
        simp only [Obuf.waiting_giveOut, List.length_drop]
        simp only [Obuf.giveOut]
        omega
      availOut := by simp only [ZStream.take, hIn.availOut]
      out :=
        ⟨given ++ st.s.obuf.waiting.take k',
          by simp only [ZStream.take, hOut,
            List.append_assoc],
          by simp only [ZStream.take, hOut',
            List.append_assoc]⟩
      nextOut := by
        simp only [ZStream.take, List.length_append,
          hIn.nextOut]
      nextOut' := by
        simp only [ZStream.take, List.length_append,
          hIn.nextOut'] }

/- The checksum is taken over from streams that agree in it. -/
theorem fixup
    {h k : DeflStream}
    (hBooks : SameBooks h k)
    (z z' : ZStream) :
    (fixupCrcOrAdler z' k).adler =
      (fixupCrcOrAdler z h).adler := by
  simp only [fixupCrcOrAdler, hBooks.format, hBooks.crc32,
    hBooks.adler32]

/- The same input is sent, and the same comes back. -/
theorem send
    (hTandem : Tandem Ok Q)
    (hIn : InCall Q old old' st tw)
    (flush : Flush)
    {env : DeflateEnv}
    (hOk : Ok env) :
    SameRound Q old old' (hDeflateSend flush env st)
      (hDeflateSend flush env tw) := by
  have hCall :
      sendCall flush env tw = sendCall flush env st := by
    simp only [sendCall, hIn.ibuf, hIn.obufTotal, hIn.nextIn]
  have hSame :=
    hTandem.call (sendCall flush env st) _ _ hOk hIn.h
  have hSent :
      InCall Q old old' (hDeflateSent flush env st)
        (hDeflateSent flush env tw) := by
    unfold hDeflateSent hDeflateCall
    rw [hCall]
    exact
      { hIn with
        h := hSame.next
        rc := hSame.rc
        obufTotal := hIn.obufTotal
        obufAvail := hSame.availOut
        waiting := hSame.output
        adler := fixup (hTandem.books _ _ hSame.next) _ _
        room := room_ret (sendCall flush env st) st.s.h
        nextIn := hIn.nextIn
        availOut := hIn.availOut
        out := hIn.out
        nextOut := hIn.nextOut
        nextOut' := hIn.nextOut' }
  have hLeft :
      (hDeflateSent flush env tw).s.h.nextIn =
        (hDeflateSent flush env st).s.h.nextIn := by
    show ((sendCall flush env tw).ret tw.s.h).strm.nextIn = _
    rw [hCall]
    exact hSame.nextIn
  unfold hDeflateSend
  simp only [hLeft]
  split
  · exact .inr
      { hSent with
        ibufAvail := hSent.ibufTotal
        ibuf := rfl }
  · exact .inl ⟨rfl, hSent⟩

theorem roundEnd
    (hIn : InCall Q old old' st tw)
    (flush : Flush) :
    SameRound Q old old' (hDeflateRoundEnd flush st)
      (hDeflateRoundEnd flush tw) := by
  have hFlushed := hIn.flush
  have hBytes :
      (hDeflateFlushObuf tw).s.obuf.bytes =
        (hDeflateFlushObuf st).s.obuf.bytes := by
    rw [← Obuf.length_waiting, ← Obuf.length_waiting,
      hFlushed.waiting]
  unfold hDeflateRoundEnd
  simp only [hFlushed.availOut, hFlushed.rc, hFlushed.nextIn,
    hFlushed.ibuf, hBytes]
  split_ifs
  · exact .inl ⟨rfl, hFlushed⟩
  · exact .inl ⟨rfl, hFlushed⟩
  · exact .inl ⟨rfl, hFlushed⟩
  · exact .inr hFlushed

theorem round
    (hTandem : Tandem Ok Q)
    (hIn : InCall Q old old' st tw)
    (flush : Flush)
    {env : DeflateEnv}
    (hOk : Ok env) :
    SameRound Q old old' (hDeflateRound flush env st)
      (hDeflateRound flush env tw) := by
  have hMid :
      InCall Q old old' (hDeflateCollect st)
        (hDeflateCollect tw) := hIn.read.flush
  unfold hDeflateRound
  simp only [hMid.availOut, hMid.ibufAvail]
  split
  · exact .inl ⟨rfl, hMid⟩
  · split
    · have hSent := hMid.send hTandem flush hOk
      generalize
        hDeflateSend flush env (hDeflateCollect st) = a at *
      generalize
        hDeflateSend flush env (hDeflateCollect tw) = b at *
      cases hSent with
      | inl hBoth => exact .inl hBoth
      | inr hBoth => exact hBoth.roundEnd flush
    · exact hMid.roundEnd flush

/- Round by round, over all of them. -/
theorem loop
    (hTandem : Tandem Ok Q)
    (hIn : InCall Q old old' st tw)
    (flush : Flush)
    (fuel : Nat)
    {env : Nat → DeflateEnv}
    (hOk : ∀ i, Ok (env i)) :
    Option.Rel
      (fun a b => b.1 = a.1 ∧ InCall Q old old' a.2 b.2)
      (hDeflateLoop flush fuel env st)
      (hDeflateLoop flush fuel env tw) := by
  induction fuel generalizing env st tw with
  | zero => exact .none
  | succ fuel ih =>
      have hRound := hIn.round hTandem flush (hOk 0)
      unfold hDeflateLoop
      generalize hDeflateRound flush (env 0) st = a at *
      generalize hDeflateRound flush (env 0) tw = b at *
      cases hRound with
      | inl hBoth => exact .some hBoth
      | inr hBoth => exact ih hBoth (fun i => hOk (i + 1))

/- Where buffering is off the caller's buffers are passed. -/
theorem direct
    (hTandem : Tandem Ok Q)
    (hIn : InCall Q old old' st tw)
    (flush : Flush)
    {env : DeflateEnv}
    (hOk : Ok env) :
    (hDeflateDirect flush env tw).1 =
        (hDeflateDirect flush env st).1 ∧
      InCall Q old old' (hDeflateDirect flush env st).2
        (hDeflateDirect flush env tw).2 := by
  have hCall :
      directCall flush env tw = directCall flush env st := by
    simp only [directCall, hIn.nextIn, hIn.availOut]
  have hCounts : Q (directStream st) (directStream tw) := by
    unfold directStream
    rw [hIn.totalIn, hIn.totalOut]
    exact hTandem.counts _ _ _ _ hIn.h
  have hSame :
      SameAnswer Q (directStream st) (directStream tw)
        ((directCall flush env st).ret (directStream st))
        ((directCall flush env tw).ret (directStream tw)) := by
    rw [hCall]
    exact
      hTandem.call (directCall flush env st) _ _ hOk hCounts
  have hBooks := hTandem.books _ _ hSame.next
  rcases hIn.out with ⟨given, hOut, hOut'⟩
  have hStored :
      ∀ st : HDeflate,
        st.strm.nextOut = st.strm.out.length →
          (hDeflateDirect flush env st).2.strm.out =
            st.strm.out ++
              newOutput (directStream st)
                ((directCall flush env st).ret
                  (directStream st)).strm := by
    intro st hEnd
    rw [← storeAt_length, ← hEnd]
    rfl
  have hBehind :
      ∀ st : HDeflate,
        st.strm.nextOut = st.strm.out.length →
          (hDeflateDirect flush env st).2.strm.nextOut =
            (hDeflateDirect flush env st).2.strm.out.length := by
    intro st hEnd
    rw [hStored st hEnd, List.length_append, ← hEnd]
    rfl
  refine ⟨hSame.rc, ?_⟩
  exact
    { hIn with
      h := hSame.next
      rc := hSame.rc
      totalIn := hBooks.totalIn
      totalOut := hBooks.totalOut
      adler := fixup hBooks st.strm tw.strm
      nextIn := hSame.nextIn
      availOut := hSame.availOut
      out :=
        ⟨given ++
          newOutput (directStream st)
            ((directCall flush env st).ret
              (directStream st)).strm,
          by rw [hStored st hIn.nextOut, hOut,
            List.append_assoc],
          by rw [hStored tw hIn.nextOut', hOut',
            hSame.output, List.append_assoc]⟩
      nextOut := hBehind st hIn.nextOut
      nextOut' := hBehind tw hIn.nextOut' }

end InCall

/- A call that both streams are offered the same buffers for. -/
theorem hDeflate_alongside
    (hTandem : Tandem Ok Q)
    (hAlong : Alongside Q st tw)
    (call : HDeflateCall)
    (hOk : ∀ i, Ok (call.env i)) :
    Option.Rel
      (fun a b =>
        b.1 = a.1 ∧
          InCall Q st.strm.out tw.strm.out a.2 b.2)
      (hDeflate call.flush call.env (call.offer st))
      (hDeflate call.flush call.env (call.offer tw)) := by
  have hOffered :
      InCall Q st.strm.out tw.strm.out (call.offer st)
        (call.offer tw) :=
    { hAlong with
      nextIn := rfl
      availOut := rfl
      out :=
        ⟨[], (List.append_nil _).symm,
          (List.append_nil _).symm⟩
      nextOut := rfl
      nextOut' := rfl }
  have hTotal :
      (call.offer tw).s.ibufTotal =
        (call.offer st).s.ibufTotal := hAlong.ibufTotal
  have hInput :
      (call.offer tw).strm.nextIn =
        (call.offer st).strm.nextIn := rfl
  unfold hDeflate
  rw [hTotal, hInput]
  split
  · exact .some
      (hOffered.direct hTandem call.flush (hOk 0))
  · refine InCall.loop hTandem ?_ call.flush _ hOk
    have hFormat := (hTandem.books _ _ hAlong.h).format
    have hCount :
        (call.offer tw).strm.totalIn =
          (call.offer st).strm.totalIn := hAlong.totalIn
    unfold prepCrcOrAdler
    rw [hCount]
    split
    · exact
        { hOffered with
          totalIn := rfl
          adler := by
            show
              (if tw.s.h.format = .zlib then (1 : UInt32)
                else 0) =
                if st.s.h.format = .zlib then 1 else 0
            rw [hFormat] }
    · exact hOffered

theorem Alongside.mono
    {Q' : DeflStream → DeflStream → Prop}
    (hAlong : Alongside Q st tw)
    (hImp : ∀ h k, Q h k → Q' h k) :
    Alongside Q' st tw :=
  { hAlong with h := hImp _ _ hAlong.h }

end InCall

------------------------------------------------------------
-- The Other Calls
------------------------------------------------------------

/- The calls that set a stream up keep a relation. -/
structure SetUpTogether
    (Q : DeflStream → DeflStream → Prop) : Prop where
  setDictionary :
    ∀ h k dictionary, Q h k →
      (deflateSetDictionary dictionary k).1 =
          (deflateSetDictionary dictionary h).1 ∧
        (deflateSetDictionary dictionary k).2.dictAdler32 =
          (deflateSetDictionary dictionary h).2.dictAdler32 ∧
        Q (deflateSetDictionary dictionary h).2
          (deflateSetDictionary dictionary k).2
  setHeader :
    ∀ h k head, Q h k →
      Q (zedcDeflateSetHeader head h)
        (zedcDeflateSetHeader head k)
  reset :
    ∀ h k, Q h k →
      Q (deflateInitState h) (deflateInitState k)

/-
  What a call shows: its return code, the bytes it stores, the
  counters and the checksum.
-/
structure HDeflateShown where
  rc : Rc
  output : List UInt8
  totalIn : Nat
  totalOut : Nat
  adler : UInt32
  deriving DecidableEq

/- What a state shows behind another one. -/
def shownBehind
    (st : HDeflate)
    (rc : Rc)
    (st' : HDeflate) : HDeflateShown where
  rc := rc
  output := st'.strm.out.drop st.strm.out.length
  totalIn := st'.strm.totalIn
  totalOut := st'.strm.totalOut
  adler := st'.strm.adler

def hDeflateShow
    (st : HDeflate) (op : HDeflateOp) :
    Option (HDeflateShown × HDeflate) :=
  (op.run st).map fun ret =>
    (shownBehind st ret.1 ret.2, ret.2)

section Shown

variable {Q : DeflStream → DeflStream → Prop}
variable {st tw : HDeflate}

/- Two results that show the same. -/
theorem InCall.shown
    {a b : HDeflate}
    (hIn : InCall Q st.strm.out tw.strm.out a b)
    (rc : Rc) :
    shownBehind st rc a = shownBehind tw rc b := by
  rcases hIn.out with ⟨given, hOut, hOut'⟩
  unfold shownBehind
  rw [hOut, hOut', List.drop_left, List.drop_left,
    hIn.totalIn, hIn.totalOut, hIn.adler]

theorem Alongside.setDictionary
    (hSetUp : SetUpTogether Q)
    (hAlong : Alongside Q st tw)
    (dictionary : List UInt8) :
    (hDeflateSetDictionary dictionary tw).1 =
        (hDeflateSetDictionary dictionary st).1 ∧
      Alongside Q (hDeflateSetDictionary dictionary st).2
        (hDeflateSetDictionary dictionary tw).2 := by
  rcases hSetUp.setDictionary _ _ dictionary hAlong.h with
    ⟨hRc, hAdler, hNext⟩
  exact ⟨hRc, { hAlong with h := hNext, adler := hAdler }⟩

theorem Alongside.reset
    (hSetUp : SetUpTogether Q)
    (hAlong : Alongside Q st tw)
    (hBooks :
      SameBooks (deflateInitState st.s.h)
        (deflateInitState tw.s.h)) :
    Alongside Q (hDeflateReset st).2 (hDeflateReset tw).2 :=
  { h := hSetUp.reset _ _ hAlong.h
    rc := rfl
    ibufTotal := hAlong.ibufTotal
    ibufAvail := hAlong.ibufTotal
    ibuf := rfl
    obufTotal := hAlong.obufTotal
    obufAvail := hAlong.obufTotal
    waiting := rfl
    totalIn := rfl
    totalOut := rfl
    adler := InCall.fixup hBooks _ _
    room := rfl }

/- A call of `h_deflate` shows the same on both streams. -/
theorem Alongside.deflate
    {Ok : DeflateEnv → Prop}
    (hTandem : Tandem Ok Q)
    (hAlong : Alongside Q st tw)
    (call : HDeflateCall)
    (hOk : ∀ i, Ok (call.env i)) :
    Option.Rel (fun a b => a.1 = b.1 ∧ Alongside Q a.2 b.2)
      (hDeflateShow st (.deflate call))
      (hDeflateShow tw (.deflate call)) := by
  have hBoth := hDeflate_alongside hTandem hAlong call hOk
  refine hBoth.map_of fun a b hSame => ?_
  rcases a with ⟨rc, a⟩
  rcases b with ⟨rc', b⟩
  obtain rfl : rc' = rc := hSame.1
  exact ⟨hSame.2.shown rc', hSame.2.toAlongside⟩

/- What the surroundings of a call have to meet. -/
def HDeflateOp.Meets
    (Ok : DeflateEnv → Prop) : HDeflateOp → Prop
  | .deflate call => ∀ i, Ok (call.env i)
  | _ => True

/- So does every call. -/
theorem Alongside.op
    {Ok : DeflateEnv → Prop}
    (hTandem : Tandem Ok Q)
    (hSetUp : SetUpTogether Q)
    (hAlong : Alongside Q st tw)
    (op : HDeflateOp)
    (hMeets : op.Meets Ok) :
    Option.Rel (fun a b => a.1 = b.1 ∧ Alongside Q a.2 b.2)
      (hDeflateShow st op) (hDeflateShow tw op) := by
  cases op with
  | deflate call => exact hAlong.deflate hTandem call hMeets
  | setDictionary dictionary =>
      rcases hAlong.setDictionary hSetUp dictionary with
        ⟨hRc, hNext⟩
      refine .some ⟨?_, hNext⟩
      simp only [shownBehind, hRc, hNext.totalIn,
        hNext.totalOut, hNext.adler]
      simp [hDeflateSetDictionary]
  | setHeader head =>
      refine .some ⟨?_,
        { hAlong with
          h := hSetUp.setHeader _ _ head hAlong.h }⟩
      simp [shownBehind, hDeflateSetHeader, hAlong.totalIn,
        hAlong.totalOut, hAlong.adler]
  | reset =>
      have hBooks :=
        hTandem.books _ _ (hSetUp.reset _ _ hAlong.h)
      have hNext := hAlong.reset hSetUp hBooks
      refine .some ⟨?_, hNext⟩
      simp only [shownBehind, hNext.totalIn, hNext.totalOut,
        hNext.adler]
      simp [hDeflateReset, fixupCrcOrAdler]

/- A stream that goes along with itself keeps doing so. -/
theorem Alongside.step
    {Ok : DeflateEnv → Prop}
    {st' : HDeflate}
    {l : HDeflateOp × Rc}
    (hTandem : Tandem Ok Q)
    (hSetUp : SetUpTogether Q)
    (hAlong : Alongside Q st st)
    (hMeets : l.1.Meets Ok)
    (hStep : hDeflateOpStep st l st') :
    Alongside Q st' st' := by
  have hBoth := hAlong.op hTandem hSetUp l.1 hMeets
  unfold hDeflateShow at hBoth
  rw [hStep] at hBoth
  cases hBoth with
  | some hSame => exact hSame.2

end Shown

end Session
