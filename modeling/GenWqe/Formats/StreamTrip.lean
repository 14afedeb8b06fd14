import GenWqe.Deflate.Decodes
import GenWqe.Formats.HeaderSplits
import GenWqe.Formats.HeaderTrip
import GenWqe.Formats.TrailerTrip
import GenWqe.Inflate.Decodes

/-
  A whole stream that `zedc_deflate` writes, read back by
  `zedc_inflate`: however writing and reading are cut into
  calls, the reader gets the input of the writer.

  Key definitions include:
    * `WritesPlain`
    * `ZlibAt`, `ReadingAt`
    * `HeaderRead`

  Main results:
    * `formatHeader_gone`
    * `Whole.trip`
    * `stream_trip`
-/

namespace Zedc

open Bits ByteMem Rfc1951 Session

------------------------------------------------------------
-- Headers Without a Dictionary
------------------------------------------------------------

/- A registered header that is written and read back. -/
def HeadOk (head : GzipHead) : Prop :=
  ∃ h : GzHeader,
    head = h.head ∧ h.Written ∧ h.extra ≠ some []

/- A stream in front of its first call, no dictionary set. -/
structure WritesPlain (w₀ : DeflStream) : Prop where
  ready : Ready w₀
  dictLen : w₀.dictLen = 0
  havedict : w₀.havedict = false
  head : ∀ head, w₀.gzipHead = some head → HeadOk head

/- The header of a stream where none is registered. -/
def defaultHeader (now : UInt32) : GzHeader where
  time := now.toUInt64
  xflags := 0
  os := 0xff
  extra := none
  name := none
  comment := none

/- It has no flags and no fields. -/
theorem bytes_default (now : UInt32) :
    (defaultHeader now).bytes = gzipHeader 0 now 0xff [] := by
  have hFlg : (defaultHeader now).flg = 0 := by
    have hSame :
        (defaultHeader now).flg = (defaultHeader 0).flg := rfl
    rw [hSame]
    decide
  have hFields : (defaultHeader now).fields = [] := by
    have hSame :
        (defaultHeader now).fields =
          (defaultHeader 0).fields := rfl
    rw [hSame]
    decide
  have hTime : (defaultHeader now).head.time = now :=
    UInt32.toUInt32_toUInt64 now
  unfold GzHeader.bytes
  rw [hFlg, hFields, hTime]
  rfl

theorem written_default (now : UInt32) :
    (defaultHeader now).Written := by
  refine ⟨?_, ?_⟩
  · have hSame :
        gzipHeadTooLong (defaultHeader now).head =
          gzipHeadTooLong (defaultHeader 0).head := rfl
    rw [hSame]
    decide
  · rw [bytes_default, length_gzipHeader]
    decide

section Header

variable {w₀ : DeflStream} {now : UInt32}

/- A GZIP header is that of some header structure. -/
theorem WritesPlain.gzip
    (hPlain : WritesPlain w₀)
    (now : UInt32)
    (hFormat : w₀.format = .gzip) :
    ∃ h : GzHeader,
      h.Written ∧ h.extra ≠ some [] ∧
        formatHeader now w₀ = h.bytes := by
  unfold formatHeader
  rw [hFormat]
  cases hHead : w₀.gzipHead with
  | none =>
      exact ⟨defaultHeader now, written_default now,
        (fun hSome => by cases hSome),
        (bytes_default now).symm⟩
  | some head =>
      rcases hPlain.head head hHead with
        ⟨h, rfl, hWritten, hExtra⟩
      refine ⟨h, hWritten, hExtra, ?_⟩
      unfold GzHeader.bytes GzHeader.fields
      rw [← stringField_eq hWritten.name_lt,
        ← stringField_eq hWritten.comment_lt]
      simp only [List.append_assoc]
      rfl

theorem WritesPlain.zlib
    (hPlain : WritesPlain w₀)
    (hFormat : w₀.format = .zlib) :
    formatHeader now w₀ = [0x78, 0x9c] := by
  unfold formatHeader
  rw [hFormat]
  simp [hPlain.havedict]

/- No header is longer than the FIFO. -/
theorem WritesPlain.length_le
    (hPlain : WritesPlain w₀) (now : UInt32) :
    (formatHeader now w₀).length ≤ 255 := by
  cases hFormat : w₀.format with
  | defl =>
      unfold formatHeader
      rw [hFormat]
      exact Nat.zero_le _
  | gzip =>
      rcases hPlain.gzip now hFormat with
        ⟨h, hWritten, _, hEq⟩
      rw [hEq]
      exact hWritten.length
  | zlib =>
      rw [hPlain.zlib hFormat]
      decide

/- There is no dictionary to read with. -/
theorem WritesPlain.dictionary
    (hPlain : WritesPlain w₀) : w₀.dictionary = [] := by
  unfold DeflStream.dictionary
  rw [hPlain.dictLen]
  exact ByteMem.window_zero _ _

end Header

------------------------------------------------------------
-- Where a Header Ends
------------------------------------------------------------

/- The two bytes of a ZLIB header, as far as they are read. -/
inductive ZlibAt (p : Prefx) : Prop
  | unread :
      p.headerState = .headerStart →
      p.idx ≤ 1 →
      (p.idx = 1 → p.bytes 0 = 0x78) →
      ZlibAt p
  | done :
      p.headerState = .headerDone →
      p.idx = 2 →
      ZlibAt p

section Zlib

variable {src : ByteMem} {s s' : InflStream} {rc : Rc}

/- The byte at `next_in` is one of the two. -/
theorem ZlibAt.byte
    {b : UInt8}
    (hFormat : s.format = .zlib)
    (hState : s.prefx.headerState = .headerStart)
    (hFirst : s.prefx.idx = 0 → b = 0x78)
    (hNext : s.prefx.idx = 1 →
      s.prefx.bytes 0 = 0x78 ∧ b = 0x9c)
    (hLe : s.prefx.idx ≤ 1) :
    ∃ hdrRc s₁,
      inflateRemHeaderByte b s = some (hdrRc, s₁) ∧
        s₁.format = .zlib ∧
        s₁.prefx.idx = s.prefx.idx ∧
        (s.prefx.idx = 0 →
          hdrRc = .needMoreData ∧
            s₁.prefx.headerState = .headerStart ∧
            s₁.prefx.bytes 0 = 0x78) ∧
        (s.prefx.idx = 1 →
          hdrRc = .ok ∧
            s₁.prefx.headerState = .headerDone) := by
  have hCollect :
      s.prefx.collect b =
        { s.prefx with
          bytes := s.prefx.bytes.store s.prefx.idx [b] } := by
    unfold Prefx.collect
    exact if_pos (by
      show s.prefx.idx < zedcFormatStorage
      have hStorage : 1 < zedcFormatStorage := by decide
      omega)
  unfold inflateRemHeaderByte
  rw [if_neg (by rw [hFormat]; decide)]
  rcases Nat.le_one_iff_eq_zero_or_eq_one.mp hLe with
    hZero | hOne
  · have hParse :
        inflateRemZlibHeader (s.prefx.collect b) =
          ⟨.needMoreData,
            { s.prefx.collect b with
              headerState := .headerStart }, none⟩ := by
      unfold inflateRemZlibHeader
      exact if_pos (by rw [hCollect]; simp [hZero])
    simp only [hParse]
    refine ⟨_, _, rfl, hFormat, ?_, fun _ => ⟨rfl, rfl, ?_⟩,
      fun hIs => ?_⟩
    · exact (s.prefx.collect_keeps b).idx
    · rw [hCollect, hZero, hFirst hZero]
      rfl
    · omega
  · rcases hNext hOne with ⟨hHere, hB⟩
    have hBytes :
        (s.prefx.collect b).bytes 0 = 0x78 ∧
          (s.prefx.collect b).bytes 1 = 0x9c := by
      rw [hCollect, hOne, hB]
      refine ⟨?_, ?_⟩
      · simp only
        rw [store_outside _ (Or.inl Nat.one_pos), hHere]
      · rfl
    have hIdx : (s.prefx.collect b).idx = 1 :=
      (s.prefx.collect_keeps b).idx.trans hOne
    have hStart :
        (s.prefx.collect b).headerState = .headerStart := by
      rw [hCollect]
      exact hState
    have hParse :
        inflateRemZlibHeader (s.prefx.collect b) =
          ⟨.ok,
            { s.prefx.collect b with
              headerState := .headerDone }, none⟩ := by
      unfold inflateRemZlibHeader
      rw [if_neg (by omega), hStart]
      simp only [zlibStartStep]
      rw [if_pos hIdx, hBytes.1, hBytes.2]
      simp
    simp only [hParse]
    refine ⟨_, _, rfl, hFormat, ?_, fun hIs => ?_,
      fun _ => ⟨rfl, rfl⟩⟩
    · exact (s.prefx.collect_keeps b).idx
    · omega

/- The loop reads the two bytes, and then it ends. -/
theorem ZlibAt.loop
    {bs : List UInt8}
    (hFirst : src 0 = 0x78)
    (hSecond : src 1 = 0x9c)
    (hFormat : s.format = .zlib)
    (hState : s.prefx.headerState = .headerStart)
    (hLe : s.prefx.idx ≤ 1)
    (hByte : s.prefx.idx = 1 → s.prefx.bytes 0 = 0x78)
    (hBytes : bs = src.window s.prefx.idx bs.length)
    (hLoop : remHeaderLoop bs s = some (rc, s')) :
    ZlibAt s'.prefx := by
  induction bs generalizing s with
  | nil =>
      cases hLoop
      exact .unread hState hLe hByte
  | cons b rest ih =>
      rw [List.length_cons, Nat.add_comm,
        ByteMem.window_add] at hBytes
      have hSplit :
          b = src s.prefx.idx ∧
            rest =
              src.window (s.prefx.idx + 1) rest.length := by
        have hOne :
            src.window s.prefx.idx 1 =
              [src s.prefx.idx] := rfl
        rw [hOne] at hBytes
        exact List.cons.inj hBytes
      rcases ZlibAt.byte (b := b) hFormat hState
          (fun hZero => by rw [hSplit.1, hZero, hFirst])
          (fun hOne => ⟨hByte hOne, by
            rw [hSplit.1, hOne, hSecond]⟩)
          hLe with
        ⟨hdrRc, s₁, hRead, hFormat₁, hIdx₁, hZero, hOne⟩
      unfold remHeaderLoop at hLoop
      rw [hRead] at hLoop
      have hPass :
          s₁.passHeaderByte.prefx.idx =
            s.prefx.idx + 1 := congrArg (· + 1) hIdx₁
      rcases Nat.le_one_iff_eq_zero_or_eq_one.mp hLe with
        hAt | hAt
      · rcases hZero hAt with ⟨rfl, hState₁, hByte₁⟩
        exact ih (s := s₁.passHeaderByte) hFormat₁ hState₁
          (by omega) (fun _ => hByte₁)
          (by rw [hPass]; exact hSplit.2) hLoop
      · rcases hOne hAt with ⟨rfl, hState₁⟩
        cases hLoop
        exact .done hState₁ (by omega)

end Zlib

------------------------------------------------------------
-- The End of the Header in a Run
------------------------------------------------------------

/-
  How far a stream without a GZIP header is read: no bytes of
  a raw one, and two of a ZLIB one.
-/
structure ReadingAt (s : InflStream) : Prop where
  raw : s.format = .defl → s.prefx.idx = 0
  zlib : s.format = .zlib → ZlibAt s.prefx

theorem readingAt_init (r₀ : InflStream) :
    ReadingAt (inflateInitState r₀) :=
  ⟨fun _ => rfl, fun _ => .unread rfl (Nat.zero_le 1)
    (fun hOne => by cases hOne)⟩

section Reading

variable {src : ByteMem} {s s' s₁ : InflStream}
variable {trace : List InflateEvent} {event : InflateEvent}
variable {flush : Flush} {rc : Rc}

theorem ReadingAt.congr
    (hAt : ReadingAt s)
    (hFormat : s'.format = s.format)
    (hPrefx : s'.prefx = s.prefx) : ReadingAt s' := by
  refine ⟨fun hIs => ?_, fun hIs => ?_⟩
  · rw [hPrefx]
    exact hAt.raw (hFormat.symm.trans hIs)
  · rw [hPrefx]
    exact hAt.zlib (hFormat.symm.trans hIs)

/- Removing a header from the front of the stream. -/
theorem ReadingAt.header
    (hAt : ReadingAt s)
    (hFormat : s.format ≠ .gzip)
    (hFront : s.format = .zlib → src 0 = 0x78 ∧ src 1 = 0x9c)
    (hPlace :
      s.prefx.headerState ≠ .headerDone →
        s.format ≠ .defl → s.totalIn = s.prefx.idx)
    (hUnprepared : s.prefx.len = 0 → s.prefx.idx = 0)
    (hFed : FedFrom src s)
    (hDone : HeaderDone flush s s' rc) : ReadingAt s' := by
  have hSame := (inflateHeader_side hDone).2.1
  unfold HeaderDone inflateHeader at hDone
  by_cases hState : s.prefx.headerState = .headerDone
  · rw [if_neg (fun hOpen => hOpen hState)] at hDone
    cases hDone
    exact hAt
  · rw [if_pos hState] at hDone
    unfold inflateFormatRemHeader at hDone
    by_cases hRaw : s.format = .defl
    · rw [if_pos hRaw] at hDone
      cases hDone
      exact hAt
    · have hZlib : s.format = .zlib := by
        cases hIs : s.format with
        | defl => exact absurd hIs hRaw
        | gzip => exact absurd hIs hFormat
        | zlib => rfl
      rw [if_neg hRaw] at hDone
      rcases hFront hZlib with ⟨hFirst, hSecond⟩
      have hIdx := hPlace hState hRaw
      refine ⟨fun hIs => ?_, fun _ => ?_⟩
      · rw [hSame] at hIs
        exact absurd hIs hRaw
      · cases hAt.zlib hZlib with
        | done hIs _ => exact absurd hIs hState
        | unread hStart hLe hByte =>
            have hPrepared :
                (remHeaderPrepare s).format = .zlib ∧
                (remHeaderPrepare s).prefx.headerState =
                  .headerStart ∧
                (remHeaderPrepare s).prefx.bytes =
                  s.prefx.bytes ∧
                (remHeaderPrepare s).prefx.idx =
                  s.prefx.idx := by
              unfold remHeaderPrepare
              split
              · rename_i hLen
                exact ⟨hZlib, hStart, rfl,
                  (hUnprepared hLen).symm⟩
              · exact ⟨hZlib, hStart, rfl, rfl⟩
            rcases hPrepared with
              ⟨hFormat', hState', hBytes', hIdx'⟩
            cases hLoop :
                remHeaderLoop s.nextIn
                  (remHeaderPrepare s) with
            | none =>
                rw [hLoop] at hDone
                cases hDone
            | some result =>
                rcases result with ⟨rc₁, s₁⟩
                have hBehind : ZlibAt s₁.prefx :=
                  ZlibAt.loop hFirst hSecond hFormat' hState'
                    (by omega)
                    (by rw [hIdx', hBytes']; exact hByte)
                    (by rw [hIdx', ← hIdx]; exact hFed)
                    hLoop
                rw [hLoop] at hDone
                simp only at hDone
                split at hDone <;> cases hDone <;>
                  exact hBehind

/- A call of `zedc_inflate` on the stream. -/
theorem ReadingAt.step
    (hAt : ReadingAt s)
    (hFormat : s.format ≠ .gzip)
    (hFront : s.format = .zlib → src 0 = 0x78 ∧ src 1 = 0x9c)
    (hInv : PositionInv src trace s)
    (hStep : inflateStep src s event s') :
    ReadingAt s' := by
  have hSame := (zedcInflate_format hStep).1
  change s'.format = s.format at hSame
  cases hInv with
  | trailer hEnd _ =>
      exact hAt.congr hSame (hEnd.step hStep).2.2.1
  | blocks hAcc _ _ _ =>
      have hHeader :
          ∀ {n s₁ s₂ rc},
            Flushed (s.offer src event.call) s₁ n →
              HeaderDone event.call.flush s₁ s₂ rc →
                ReadingAt s₂ := by
        intro n s₁ s₂ rc hFlushed hDone
        rw [hFlushed.strm] at hDone
        refine ReadingAt.header
          (s := (s.offer src event.call).giveOut n)
          (hAt.congr rfl rfl) hFormat hFront ?_
          hAcc.mark.unprepared
          (fedFrom_offer src event.call s) hDone
        intro hOpen hNotRaw
        exact (hAcc.begun.resolve_left (fun hGone =>
          hGone.elim hNotRaw hOpen)).1
      cases zedcInflate_header hStep with
      | kept hKept _ _ =>
          exact hAt.congr hSame hKept.prefx
      | returned _ hFlushed _ _ hDone _ =>
          exact hHeader hFlushed hDone
      | submitted _ hFlushed _ _ hDone hKept _ _ =>
          exact (hHeader hFlushed hDone).congr hKept.format
            hKept.prefx

end Reading

/-
  How a reader stands to the header of its stream: one of GZIP
  is read as its grammar says, of another format it has so
  many bytes.
-/
structure HeaderRead
    (x : List UInt8)
    (r₀ : InflStream)
    (trace : List InflateEvent)
    (s : InflStream) : Prop where
  format : s.format = r₀.format
  gzip :
    r₀.format = .gzip →
      HeaderPhase x (inflateInitState r₀).prefx.prepared trace
        s
  other : r₀.format ≠ .gzip → ReadingAt s

section Gone

variable {w₀ : DeflStream} {now : UInt32}
variable {r₀ r s s' : InflStream} {x : List UInt8}
variable {trace : List InflateEvent} {event : InflateEvent}

theorem HeaderRead.init
    (x : List UInt8) (r₀ : InflStream) :
    HeaderRead x r₀ [] (inflateInitState r₀) :=
  ⟨rfl, fun hGzip => .start (untouched_init hGzip) rfl,
    fun _ => readingAt_init r₀⟩

theorem HeaderRead.step
    (hNone : r₀.prefx.gzipHead = none)
    (hFront :
      r₀.format = .zlib →
        bytesAt x 0 = 0x78 ∧ bytesAt x 1 = 0x9c)
    (hRead : HeaderRead x r₀ trace s)
    (hInv : PositionInv (bytesAt x) trace s)
    (hStep : splitStep x s event s') :
    HeaderRead x r₀ (trace ++ [event]) s' := by
  refine ⟨?_, fun hGzip => ?_, fun hOther => ?_⟩
  · exact (zedcInflate_format hStep.2).1.trans hRead.format
  · exact (hRead.gzip hGzip).step (atStart_init hNone)
      (fun _ _ => headerFits_none _) hStep
  · exact (hRead.other hOther).step
      (by rw [hRead.format]; exact hOther)
      (by rw [hRead.format]; exact hFront) hInv hStep.2

/- A run that is offered a string is one of its stream. -/
theorem splitRun_run
    (hRun : Run (splitStep x) (inflateInitState r₀) trace r) :
    Run (inflateStep (bytesAt x)) (inflateInitState r₀) trace
      r :=
  hRun.mono (fun _ _ _ hStep => hStep.2)

theorem headerRead_of_run
    (hNone : r₀.prefx.gzipHead = none)
    (hFront :
      r₀.format = .zlib →
        bytesAt x 0 = 0x78 ∧ bytesAt x 1 = 0x9c)
    (hRun : Run (splitStep x) (inflateInitState r₀) trace r)
    (hCard : ∀ event ∈ trace, DecodingEvent event) :
    HeaderRead x r₀ trace r := by
  have hBoth :
      PositionInv (bytesAt x) trace r ∧
        HeaderRead x r₀ trace r :=
    hRun.invariant_of_labels
      (fun trace s =>
        PositionInv (bytesAt x) trace s ∧
          HeaderRead x r₀ trace s)
      DecodingEvent
      ⟨.blocks (accounted_init (bytesAt x) r₀) rfl rfl
        (by simp [Returned]), .init x r₀⟩
      (fun _ _ _ _ hOk hInv hStep => by
        rcases hInv with ⟨hInv, hRead⟩
        exact ⟨position_step hInv hOk.position hStep.2,
          hRead.step hNone hFront hInv hStep⟩)
      hCard
  exact hBoth.2

/- The first bytes of a string. -/
theorem bytesAt_of_isPrefix
    {front : List UInt8} {i : Nat}
    (hFront : front <+: x)
    (hLt : i < front.length) :
    bytesAt x i = front.getD i 0 := by
  rcases hFront with ⟨rest, rfl⟩
  unfold bytesAt
  rw [List.getD_eq_getElem?_getD, List.getD_eq_getElem?_getD,
    List.getElem?_append_left hLt]

theorem WritesPlain.zlibFront
    (hPlain : WritesPlain w₀)
    (hFront : formatHeader now w₀ <+: x)
    (hZlib : w₀.format = .zlib) :
    bytesAt x 0 = 0x78 ∧ bytesAt x 1 = 0x9c := by
  rw [hPlain.zlib hZlib] at hFront
  exact ⟨bytesAt_of_isPrefix hFront (by decide),
    bytesAt_of_isPrefix hFront (by decide)⟩

/- A GZIP header that is done was read as a whole. -/
theorem headerPhase_idx
    {h : GzHeader}
    {rest : List UInt8}
    (hWritten : h.Written)
    (hExtra : h.extra ≠ some [])
    (hNone : r₀.prefx.gzipHead = none)
    (hPhase :
      HeaderPhase (h.bytes ++ rest)
        (inflateInitState r₀).prefx.prepared trace r)
    (hDone : r.prefx.headerState = .headerDone) :
    r.prefx.idx = h.bytes.length := by
  have hStart := atStart_init hNone
  have hRoom :
      HeaderRoom h
        (inflateInitState r₀).prefx.prepared.gzipHead := by
    have hHead :
        (inflateInitState r₀).prefx.prepared.gzipHead =
          none := hNone
    rw [hHead]
    exact ⟨fun _ _ r hR => (by cases hR),
      fun _ r hR => (by cases hR),
      fun _ r hR => (by cases hR)⟩
  rcases gzipBytes_header rest hWritten hExtra hStart.idx
      hStart.state hRoom with
    ⟨q, hWhole, _⟩
  cases hPhase with
  | unread _ _ hBytes _ =>
      have hOpen := (gzipBytes_more hStart.open hBytes).1
      rw [Prefx.headerState_prepared] at hOpen
      exact absurd hDone hOpen
  | rejected _ _ hRejects _ _ _ _ =>
      rw [hRejects.state] at hDone
      cases hDone
  | @done m left hM hBytes _ =>
      have hAll :=
        gzipBytes_append ((h.bytes ++ rest).take m)
          ((h.bytes ++ rest).drop m)
          (inflateInitState r₀).prefx.prepared
      rw [List.take_append_drop, hBytes, hWhole] at hAll
      have hQ : q = r.prefx :=
        (Prod.mk.inj (Prod.mk.inj
          (Option.some.inj hAll)).2).1
      have hSum := gzipBytes_idx hWhole
      rw [hStart.idx, hQ, List.length_append] at hSum
      omega

/- A header that is gone had all bytes of the written one. -/
theorem formatHeader_gone
    (hPlain : WritesPlain w₀)
    (hFormat : r₀.format = w₀.format)
    (hNone : r₀.prefx.gzipHead = none)
    (hFront : formatHeader now w₀ <+: x)
    (hRead : HeaderRead x r₀ trace r)
    (hGone : HeaderGone r) :
    r.prefx.idx = (formatHeader now w₀).length := by
  have hSame := hRead.format
  cases hIs : w₀.format with
  | gzip =>
      rcases hPlain.gzip now hIs with
        ⟨h, hWritten, hExtra, hEq⟩
      rw [hEq] at hFront ⊢
      rcases hFront with ⟨rest, rfl⟩
      refine headerPhase_idx hWritten hExtra hNone
        (hRead.gzip (hFormat.trans hIs))
        (hGone.resolve_left ?_)
      rw [hSame, hFormat, hIs]
      decide
  | defl =>
      have hAt := hRead.other (by rw [hFormat, hIs]; decide)
      rw [hAt.raw (hSame.trans (hFormat.trans hIs))]
      unfold formatHeader
      rw [hIs]
      rfl
  | zlib =>
      rw [hPlain.zlib hIs]
      have hAt := hRead.other (by rw [hFormat, hIs]; decide)
      cases hAt.zlib (hSame.trans (hFormat.trans hIs)) with
      | done _ hIdx => exact hIdx
      | unread hStart _ _ =>
          rcases hGone with hRaw | hDone
          · rw [hSame, hFormat, hIs] at hRaw
            cases hRaw
          · rw [hStart] at hDone
            cases hDone

end Gone

------------------------------------------------------------
-- The Whole Stream
------------------------------------------------------------

/- The bytes behind a front, by their bits. -/
theorem bitsOf_behind
    {x front : List UInt8} {bits : List Bool}
    (hBits : bitsOf x = bitsOf front ++ bits) :
    ∃ rest, x = front ++ rest ∧ bitsOf rest = bits := by
  have hLen := congrArg List.length hBits
  rw [List.length_append, length_bitsOf, length_bitsOf]
    at hLen
  have hSplit : x.take front.length ++ x.drop front.length =
      x := List.take_append_drop _ _
  have hParts := hBits
  rw [← hSplit, bitsOf_append] at hParts
  have hTake :
      (x.take front.length).length = front.length := by
    rw [List.length_take]
    omega
  rcases List.append_inj hParts (by
      rw [length_bitsOf, length_bitsOf, hTake]) with
    ⟨hFront, hRest⟩
  have hSame : x.take front.length = front :=
    bitsOf_injective hFront
  refine ⟨x.drop front.length, ?_, hRest⟩
  rw [← hSame, hTake, hSplit]

section Whole

variable {w₀ w : DeflStream} {written : List DeflateLabel}
variable {r₀ r : InflStream} {trace : List InflateEvent}
variable {header rest more : List UInt8} {body : List Bool}

/- A whole stream, behind the header of its first call. -/
structure Whole
    (w₀ w : DeflStream)
    (written : List DeflateLabel)
    (header rest : List UInt8)
    (body pad : List Bool) : Prop where
  bytes : w.nextOut = header ++ rest
  header : ∃ now, header = formatHeader now w₀
  bits :
    bitsOf rest =
      body ++ (pad ++ bitsOf (streamTrailer w₀ written))
  pad : pad.length < 8
  reads :
    ∃ d, Reads (.start []) body (absorbedBytes written) d ∧
      d.mode = .done

theorem whole_of_run
    (hPlain : WritesPlain w₀)
    (hWrite : Run deflateStep w₀ written w)
    (hCompress : ∀ l ∈ written, ∀ ex, l.exchange = some ex →
      Compresses w₀.dynHuffmanSupported ex)
    (hDone : deflateDone w = true) :
    ∃ header rest body pad,
      Whole w₀ w written header rest body pad := by
  unfold deflateDone at hDone
  rw [Bool.and_eq_true, Bool.and_eq_true,
    ZedcFifo.fifoEmpty_iff] at hDone
  rcases hDone with ⟨⟨hEob, _⟩, hDrained⟩
  rcases meant_of_run hPlain.ready hPlain.length_le hWrite
      hCompress with ⟨hIn, d, hMeant⟩
  rcases hMeant.ended hIn hEob with
    ⟨body, pad, d', hReads, hMode, hPad, hBits⟩
  rw [hDrained, List.append_nil, List.append_assoc,
    List.append_assoc] at hBits
  rw [hPlain.dictionary] at hReads
  rcases bitsOf_behind hBits with ⟨rest, hBytes, hRest⟩
  refine ⟨_, rest, body, pad, hBytes, ?_, hRest, hPad, d',
    hReads, hMode⟩
  cases written with
  | cons l _ => exact ⟨l.call.env.now, rfl⟩
  | nil =>
      have hStart :
          ∀ {ls : List DeflateLabel},
            Run deflateStep w₀ ls w → ls = [] → w = w₀ := by
        intro ls hRun hNil
        cases hRun with
        | start => rfl
        | next _ _ => simp at hNil
      rw [hStart hWrite rfl, hPlain.ready.fresh.eobAdded]
        at hEob
      cases hEob

/- The header is in front of what is read. -/
theorem Whole.front
    {pad : List Bool}
    (hWhole : Whole w₀ w written header rest body pad)
    (more : List UInt8) : header <+: w.nextOut ++ more := by
  rw [hWhole.bytes, List.append_assoc]
  exact List.prefix_append _ _

theorem Whole.zlibFront
    {pad : List Bool}
    (hWhole : Whole w₀ w written header rest body pad)
    (hPlain : WritesPlain w₀)
    (hFormat : r₀.format = w₀.format)
    (more : List UInt8)
    (hZlib : r₀.format = .zlib) :
    bytesAt (w.nextOut ++ more) 0 = 0x78 ∧
      bytesAt (w.nextOut ++ more) 1 = 0x9c := by
  rcases hWhole.header with ⟨now, hHeader⟩
  have hFront := hWhole.front more
  rw [hHeader] at hFront
  exact hPlain.zlibFront hFront (hFormat.symm.trans hZlib)

/- Reader and writer see the same bits. -/
theorem Whole.common
    {pad : List Bool} {d : Decoder}
    (hWhole : Whole w₀ w written header rest body pad)
    (hIdx : r.prefx.idx = header.length)
    (hDecoded :
      Decoded (bytesAt (w.nextOut ++ more)) trace r d) :
    ∃ left left', consumedBits trace ++ left = body ++ left' :=
  by
  rcases hDecoded.taken with ⟨n, hTaken⟩
  rw [hIdx] at hTaken
  have hWindow :
      (bytesAt (w.nextOut ++ more)).window header.length
        rest.length = rest := by
    rw [window_bytesAt (by
      rw [hWhole.bytes, List.length_append,
        List.length_append]
      omega), hWhole.bytes, List.append_assoc,
      List.drop_left, List.take_left]
  have hInto :
      ∀ m ≤ n + rest.length,
        bitsOf ((bytesAt (w.nextOut ++ more)).window
            header.length m) <+:
          bitsOf ((bytesAt (w.nextOut ++ more)).window
            header.length (n + rest.length)) :=
    fun _ hLe => bitsOf_isPrefix (window_isPrefix _ _ hLe)
  have hBody := hInto rest.length (Nat.le_add_left _ _)
  rw [hWindow, hWhole.bits] at hBody
  rcases hTaken.trans (hInto n (Nat.le_add_right _ _)) with
    ⟨left, hLeft⟩
  rcases (List.prefix_append _ _).trans hBody with
    ⟨left', hLeft'⟩
  exact ⟨left, left', hLeft.trans hLeft'.symm⟩

/-
  Whoever reads a whole stream, and has decoded what it was
  given, has decoded the front of what was written, and at
  the end of the stream all of it.
-/
theorem Whole.trip
    {pad : List Bool} {d : Decoder}
    (hWhole : Whole w₀ w written header rest body pad)
    (hPlain : WritesPlain w₀)
    (hFormat : r₀.format = w₀.format)
    (hNone : r₀.prefx.gzipHead = none)
    (hRead : HeaderRead (w.nextOut ++ more) r₀ trace r)
    (hInv :
      PositionInv (bytesAt (w.nextOut ++ more)) trace r)
    (hDecoded :
      Decoded (bytesAt (w.nextOut ++ more)) trace r d) :
    producedBytes trace <+: absorbedBytes written ∧
      (Returned .streamEnd trace →
        producedBytes trace = absorbedBytes written ∧
          r.totalIn = w.nextOut.length) := by
  rcases hWhole.reads with ⟨d', hReads, hMode⟩
  rcases hWhole.header with ⟨now, hHeader⟩
  have hFront := hWhole.front more
  rw [hHeader] at hFront
  have hGone : HeaderGone r →
      r.prefx.idx = header.length := by
    intro hIs
    rw [formatHeader_gone hPlain hFormat hNone hFront hRead
      hIs, hHeader]
  have hCommon :
      ∃ left left',
        consumedBits trace ++ left = body ++ left' := by
    rcases hDecoded.gone with hIs | hNothing
    · exact hWhole.common (hGone hIs) hDecoded
    · exact ⟨body, [], by rw [hNothing]; simp⟩
  rcases hCommon with ⟨left, left', hSame⟩
  rcases hReads.within hMode hDecoded.reads hSame.symm with
    ⟨_, hOut, hAll⟩
  refine ⟨hOut, fun hEnd => ?_⟩
  rcases hDecoded.returned hInv hEnd with
    ⟨hEnded, _, hTotal⟩
  rcases hAll hEnded with ⟨hBits, hBytes⟩
  refine ⟨hBytes, ?_⟩
  have hIdx : r.prefx.idx = header.length := by
    apply hGone
    apply hDecoded.gone.resolve_right
    intro hNothing
    -- the end is not reached without a bit
    rw [← hBits, hNothing] at hReads
    rw [hReads.of_nil.2] at hMode
    cases hMode
  have hLen := congrArg List.length hWhole.bits
  have hTrailer :
      (streamTrailer w₀ written).length =
        trailerLen w₀.format := length_formatTrailer _ _ _ _
  have hPad := hWhole.pad
  rw [List.length_append, List.length_append, length_bitsOf,
    length_bitsOf, hTrailer] at hLen
  rw [hTotal, hRead.format, hFormat, dataEnd, hBits, hIdx,
    hWhole.bytes, List.length_append]
  omega

/-
  A stream that `zedc_deflate` has written as a whole, over
  any calls and flushes, read by `zedc_inflate` over any calls
  and with anything behind it, while every DDCB of the reader
  is a step of decoding: the reader never has anything else
  than the front of what was written, and at the end of the
  stream it has all of it and stands behind the trailer.
-/
theorem stream_trip
    (more : List UInt8)
    (hPlain : WritesPlain w₀)
    (hWrite : Run deflateStep w₀ written w)
    (hCompress : ∀ l ∈ written, ∀ ex, l.exchange = some ex →
      Compresses w₀.dynHuffmanSupported ex)
    (hDone : deflateDone w = true)
    (hFormat : r₀.format = w₀.format)
    (hNone : r₀.prefx.gzipHead = none)
    (hRead :
      Run (splitStep (w.nextOut ++ more))
        (inflateInitState r₀) trace r)
    (hDecompress : ∀ event ∈ trace, DecodingEvent event) :
    r.nextOut ++ r.dict.pending <+: absorbedBytes written ∧
      (Returned .streamEnd trace →
        r.nextOut = absorbedBytes written ∧
          r.totalIn = w.nextOut.length) := by
  rcases whole_of_run hPlain hWrite hCompress hDone with
    ⟨header, rest, body, pad, hWhole⟩
  rcases decoded_of_run (splitRun_run hRead) hDecompress with
    ⟨hInv, d, hDecoded⟩
  have hHeader := headerRead_of_run hNone
    (hWhole.zlibFront hPlain hFormat more) hRead hDecompress
  rcases hWhole.trip hPlain hFormat hNone hHeader hInv
      hDecoded with
    ⟨hFront, hAll⟩
  have hOutput :=
    (givenOut_of_run (splitRun_run hRead)
      hDecompress).output
  rw [hOutput]
  refine ⟨hFront, fun hEnd => ?_⟩
  have hNothing := (hDecoded.returned hInv hEnd).2.1
  rw [hNothing, List.append_nil] at hOutput
  exact ⟨hOutput.trans (hAll hEnd).1, (hAll hEnd).2⟩

end Whole

/- The letter and the end of both blocks are found. -/
def bothFound : InflResp :=
  { letterFound with inpProcessed := 3, procBits := 4 }

/- All that was written is offered. -/
def wholeOffer : InflateCall :=
  { letterOffer with
    availIn := 10, env := ⟨fun _ _ => bothFound⟩ }

/- What the writer of a letter has written. -/
def letterStream : List UInt8 :=
  (letterCall.ret echoStream).strm.nextOut

def zlibReader : InflStream :=
  inflateInitState (InflStream.zeroed .zlib)

theorem decodingEvent_whole :
    DecodingEvent
      (wholeOffer.event (bytesAt letterStream) zlibReader) := by
  refine ⟨by decide, by decide, fun ex hEx => ?_⟩
  cases hEx
  refine ⟨Or.inr ⟨⟨by decide, by decide, by decide,
    by decide, by decide, by decide, by decide⟩, by decide⟩,
    ⟨by decide, by decide, fun hNone _ => ?_⟩,
    fun _ => rfl, fun d hHeader _ _ => ?_⟩
  · exact absurd hNone (by decide)
  · have hMode : d.mode = .header :=
      (headerNames_nil d.mode).mp hHeader
    have hLetter := (reads_fixedHeader false hMode).trans
      ((reads_literal rfl (List.cons_ne_nil _ _)
        run_letter).trans (reads_endOfBlock false rfl))
    have hBoth := hLetter.trans
      ((reads_fixedHeader true rfl).trans
        (reads_endOfBlock true rfl))
    exact ⟨_, hBoth, rfl⟩

theorem stream_trip_letter :
    (wholeOffer.ret (bytesAt letterStream)
          zlibReader).strm.nextOut =
        absorbedBytes [letterCall.label echoStream] ∧
      (wholeOffer.ret (bytesAt letterStream)
          zlibReader).strm.totalIn =
        letterStream.length := by
  have hWrite :
      Run deflateStep echoStream
        [letterCall.label echoStream]
        (letterCall.ret echoStream).strm :=
    Run.next Run.start ⟨rfl, by decide⟩
  have hRead :
      Run (splitStep (letterStream ++ [])) zlibReader
        ([] ++
          [wholeOffer.event (bytesAt letterStream)
            zlibReader])
        (wholeOffer.ret (bytesAt letterStream)
          zlibReader).strm := by
    rw [List.append_nil]
    exact Run.next Run.start
      ⟨by decide, inflateStep_ret (by decide)⟩
  refine (stream_trip [] ⟨Ready.init _, rfl, rfl, ?_⟩ hWrite
    compresses_letter (by decide) rfl rfl hRead ?_).2
    ⟨_, List.mem_singleton_self _, by decide⟩
  · intro head hHead
    cases hHead
  · intro event hEvent
    rw [List.nil_append, List.mem_singleton] at hEvent
    rw [hEvent]
    exact decodingEvent_whole

end Zedc
