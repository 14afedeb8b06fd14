import GenWqe.Formats.StreamTrip
import GenWqe.Session.DeflateDecoding
import GenWqe.Session.InflateDecoding

/-
  What a caller of `h_deflate` has written as a whole stream,
  given to `h_inflate`: with buffers of any sizes on either
  side, and whatever the calls, the bytes come back.

  Main results:
    * `HDeflateKept.whole`
    * `reading_rule`
    * `api_trip`
-/

------------------------------------------------------------
-- The Writer
------------------------------------------------------------

namespace Session

open Zedc Hardware Bits ByteMem Rfc1951

/- A writer that has returned the end has a whole stream. -/
theorem HDeflateKept.whole
    {h₀ : DeflStream}
    {history : List HDeflateEvent}
    {w : HDeflate}
    (hPlain : WritesPlain h₀)
    (hKept : HDeflateKept h₀ history w)
    (hCompress : ∀ l ∈ w.calls, ∀ ex, l.exchange = some ex →
      Compresses h₀.dynHuffmanSupported ex)
    (hEnd : LastReturned .streamEnd history) :
    w.s.h.nextOut = w.strm.out ∧
      absorbedBytes w.calls = consumedInput history ∧
      ∃ header rest body pad,
        Whole h₀ w.s.h w.calls header rest body pad := by
  have hAll := hKept.ended hEnd
  have hConsumed := hKept.consumed
  have hGiven := hKept.inv.delivered
  rw [hAll.ibuf, List.append_nil] at hConsumed
  rw [hAll.waiting, List.append_nil] at hGiven
  exact ⟨hGiven.symm, hConsumed.symm,
    whole_of_run hPlain hKept.inv.run hCompress hAll.done⟩

------------------------------------------------------------
-- The Reader
------------------------------------------------------------

/- Buffers and `total_out` make no difference to a header. -/
theorem headerRead_aside
    {x : List UInt8}
    {r₀ s s' : InflStream}
    {trace : List InflateEvent}
    (hRead : HeaderRead x r₀ trace s)
    (hAside : Aside s s') : HeaderRead x r₀ trace s' := by
  rw [hAside.strm]
  refine ⟨hRead.format, fun hGzip => ?_, fun hOther =>
    ⟨(hRead.other hOther).raw, (hRead.other hOther).zlib⟩⟩
  cases hRead.gzip hGzip with
  | unread hUntouched hTotal hBytes hNone =>
      refine .unread ?_ hTotal hBytes hNone
      exact ⟨hUntouched.format,
        ⟨hUntouched.data.eobSeen, hUntouched.data.inflStat⟩,
        hUntouched.scratch, hUntouched.pending,
        hUntouched.idx, hUntouched.unprepared⟩
  | rejected hUntouched hTotal hRejects hLen hFold hMagic
      hRefused =>
      refine .rejected ?_ hTotal hRejects hLen hFold hMagic
        hRefused
      exact ⟨hUntouched.format,
        ⟨hUntouched.data.eobSeen, hUntouched.data.inflStat⟩,
        hUntouched.scratch, hUntouched.pending,
        hUntouched.idx, hUntouched.unprepared⟩
  | done hM hBytes hNone => exact .done hM hBytes hNone

/- The calls of a session read header and data. -/
theorem reading_rule
    {x : List UInt8}
    {r₀ : InflStream}
    (hNone : r₀.prefx.gzipHead = none)
    (hFront :
      r₀.format = .zlib →
        bytesAt x 0 = 0x78 ∧ bytesAt x 1 = 0x9c) :
    CallRule x DecodingEvent (fun trace s =>
      (PositionInv (bytesAt x) trace s ∧
          ∃ d, Decoded (bytesAt x) trace s d) ∧
        HeaderRead x r₀ trace s) := by
  refine (decoding_rule x).and ?_ ?_
  · intro trace s s' hRead hAside
    exact headerRead_aside hRead hAside
  · rintro trace s event s' ⟨hInv, _⟩ hRead hStep
    exact hRead.step hNone hFront hInv hStep

------------------------------------------------------------
-- Both Ways
------------------------------------------------------------

section Trip

variable {h₀ : DeflStream} {ibufTotal obufTotal : Nat}
variable {history : List HDeflateEvent} {w : HDeflate}
variable {disabled : Bool} {cfg : InflateConfig}
variable {windowBits : Int} {z : ZStream}
variable {st₀ r : HInflate} {trace : List HInflateEvent}

/-
  A stream written to its end by calls of `h_deflate`, with
  anything behind it, and read by calls of `h_inflate` whose
  DDCBs are steps of decoding, both with internal buffers or
  without: what the reader has, or still waits for it, is the
  front of the input consumed by the writer, and once the end
  is returned the reader has all of it and has consumed just
  the stream.
-/
theorem api_trip
    (more : List UInt8)
    (hPlain : WritesPlain h₀)
    (hWrite :
      Run hDeflateMove (hDeflateInit h₀ ibufTotal obufTotal)
        history w)
    (hCompress : ∀ l ∈ w.calls, ∀ ex, l.exchange = some ex →
      Compresses h₀.dynHuffmanSupported ex)
    (hWhole : LastReturned .streamEnd history)
    (hInit : hInflateInit2 cfg windowBits z = some st₀)
    (hFormat : st₀.s.h.format = h₀.format)
    (hSearch : disabled = true ∨ h₀.format ≠ .defl)
    (hRead :
      Run (hInflateFed disabled (w.strm.out ++ more)) st₀
        trace r)
    (hDecompress :
      ∀ event ∈ sentEvents r, DecodingEvent event) :
    (∃ out,
        out <+: consumedInput history ∧
          r.strm.out ++ r.s.obuf.waiting ++
              r.s.h.dict.pending =
            z.out ++ out) ∧
      (EndReturned trace →
        r.strm.out = z.out ++ consumedInput history ∧
          r.strm.totalIn = w.strm.out.length) := by
  rcases (hDeflateKept_of_run hPlain.ready hWrite).whole
      hPlain hCompress hWhole with
    ⟨hOut, hInput, header, rest, body, pad, hStream⟩
  rw [← hOut] at hRead ⊢
  rcases hInflateInit2_some hInit with
    ⟨⟨s₀, hStart, hNone⟩, _⟩
  have hSame : s₀.format = h₀.format := by
    rw [hStart] at hFormat
    exact hFormat
  have hKept := hInflateKept_of_run
    (reading_rule hNone
      (hStream.zlibFront hPlain hSame more))
    hInit (by rw [hFormat]; exact hSearch)
    (by
      rw [hStart]
      exact ⟨⟨.blocks (accounted_init _ s₀) rfl rfl
        (by simp [Returned]), _, decoded_init _ s₀⟩,
        .init _ s₀⟩)
    hRead
  rcases hKept.follows hDecompress with ⟨hSettled, hGiven⟩
  rcases hSettled.stream with
    ⟨⟨hInv, d, hDecoded⟩, hHeader⟩
  rcases hStream.trip hPlain hSame hNone hHeader hInv
      hDecoded with
    ⟨hFront, hAll⟩
  have hOutput := hKept.output hInit hDecompress
  rw [hInput] at hFront hAll
  refine ⟨⟨_, hFront, hOutput⟩, fun hEnd => ?_⟩
  have hLast := hGiven hEnd
  have hReturned := (hSettled.ended hLast.rc).1
  rcases hAll hReturned with ⟨hBytes, hTotal⟩
  have hPending :=
    (hDecoded.returned hInv hReturned).2.1
  refine ⟨?_, ?_⟩
  · unfold outputSoFar at hOutput
    rw [hLast.waiting, hPending, List.append_nil,
      List.append_nil, hBytes] at hOutput
    exact hOutput
  · rw [hSettled.place]
    exact hTotal

end Trip

------------------------------------------------------------
-- One Letter
------------------------------------------------------------

/- A ZLIB stream that was just set up. -/
def zlibSession : HInflate :=
  (hInflateInit2 plainConfig 15 ZStream.initial).getD
    rawInflate

/- All that was written is offered. -/
def wholeLetter : HInflateCall where
  nextIn := letterStream
  availOut := 16
  flush := .noFlush
  env := fun _ => wholeOffer.env

/- What the call returns and leaves. -/
def wholeRet : Rc × HInflate :=
  (HInflateOp.inflate wholeLetter).ret false 1 zlibSession

theorem run_wholeLetter :
    Run (hInflateFed false (finishRet.2.strm.out ++ []))
      zlibSession [⟨wholeLetter, .streamEnd⟩] wholeRet.2 := by
  refine Run.next Run.start ⟨by decide, 1, ?_⟩
  have hRc : wholeRet.1 = .streamEnd := by decide
  change (HInflateOp.inflate wholeLetter).run false 1 _ = _
  rw [← hRc]
  exact HInflateOp.run_ret (by decide)

theorem api_trip_letter :
    wholeRet.2.strm.out = consumedInput [finishEvent] ∧
      wholeRet.2.strm.totalIn =
        finishRet.2.strm.out.length := by
  have hSent :
      sentEvents wholeRet.2 =
        [wholeOffer.event (bytesAt letterStream)
          zlibReader] := rfl
  have hInit :
      hInflateInit2 plainConfig 15 ZStream.initial =
        some zlibSession := rfl
  have hPlain : WritesPlain echoStream := by
    refine ⟨Ready.init _, rfl, rfl, fun head hHead => ?_⟩
    cases hHead
  refine (api_trip [] hPlain run_finishLetter
    compresses_finishLetter ⟨_, rfl, rfl⟩ hInit rfl
    (Or.inr (fun hRaw => by cases hRaw)) run_wholeLetter
    (fun event hEvent => ?_)).2 ⟨_, rfl, rfl⟩
  rw [hSent, List.mem_singleton] at hEvent
  rw [hEvent]
  exact decodingEvent_whole

end Session
