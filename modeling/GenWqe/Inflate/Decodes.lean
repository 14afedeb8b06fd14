import GenWqe.Inflate.Position
import GenWqe.Lib.DeflateFormat
import GenWqe.Session.InflateDelivery

/-
  What the exchanges of an inflate stream come to: however the
  stream is cut into calls, the header, the dictionary and the
  bits handed from one exchange to the next make one decoder
  run over the whole stream, whose output the caller gets.

  Key definitions include:
    * `DictArea.bytes`, `InflReq.dictionary`
    * `Decompresses`, `DecodingExchange`
    * `Decoded`

  Main results:
    * `inflateStep_hands`
    * `Decoded.step`
    * `inflate_decodes`
-/

------------------------------------------------------------
-- Dictionaries
------------------------------------------------------------

namespace Zedc

open Bits Rfc1951 Session

/- The dictionary in the page in use. -/
def DictArea.bytes (d : DictArea) : List UInt8 :=
  (d.dict d.wspPage).window d.outDictOffs d.dictLen

/- The dictionary the card is given. -/
def InflReq.dictionary (req : InflReq) : List UInt8 :=
  ByteMem.window req.inDict 0 req.inDictLen

/- The dictionary the card leaves behind. -/
def InflResp.dictionary (resp : InflResp) : List UInt8 :=
  resp.outDict.window resp.outDictOffs.toNat
    resp.outDictUsed.toNat

/- The output of all exchanges of a run. -/
def producedBytes
    (trace : List InflateEvent) : List UInt8 :=
  (trace.filterMap InflateEvent.exchange).flatMap
    InflExchange.produced

theorem producedBytes_append
    (trace : List InflateEvent)
    (event : InflateEvent) :
    producedBytes (trace ++ [event]) =
      producedBytes trace ++
        event.exchange.elim [] InflExchange.produced := by
  unfold producedBytes
  cases hEx : event.exchange <;> simp [hEx]

/- Up to the DDCB the save area and the dictionary stay. -/
structure AreasKept (s s' : InflStream) : Prop where
  save : s'.save = s.save
  bytes : s'.dict.bytes = s.dict.bytes
  less : s'.dict.obytesInDict ≤ s.dict.obytesInDict

theorem AreasKept.refl (s : InflStream) : AreasKept s s :=
  ⟨rfl, rfl, Nat.le_refl _⟩

theorem AreasKept.trans
    {s s₁ s₂ : InflStream}
    (hFirst : AreasKept s s₁)
    (hNext : AreasKept s₁ s₂) : AreasKept s s₂ :=
  ⟨hNext.save.trans hFirst.save,
    hNext.bytes.trans hFirst.bytes,
    hNext.less.trans hFirst.less⟩

theorem Flushed.areas
    {s s₁ : InflStream}
    {n : Nat}
    (hFlushed : Flushed s s₁ n) : AreasKept s s₁ := by
  rw [hFlushed.strm]
  exact ⟨rfl, rfl, Nat.sub_le _ _⟩

theorem HeaderDone.areas
    {flush : Flush}
    {s s₁ : InflStream}
    {rc : Rc}
    (hDone : HeaderDone flush s s₁ rc) : AreasKept s s₁ := by
  have hDict := (inflateHeader_side hDone).1
  rcases (inflateHeader_passed hDone).1 with ⟨k, hPassed⟩
  refine ⟨(congrArg InflStream.save hPassed.strm :), ?_, ?_⟩
  · rw [hDict]
  · rw [hDict]

theorem inflateTrailer_areas (s : InflStream) :
    AreasKept s (inflateTrailer (inflateEobSeen s)).2 := by
  have hDict := inflateTrailer_dict s
  have hSeen : (inflateEobSeen s).save = s.save := by
    unfold inflateEobSeen
    split <;> rfl
  rcases (inflateTrailer_passed (inflateEobSeen s)).1 with
    ⟨k, hPassed⟩
  have hSave :=
    (congrArg InflStream.save hPassed.strm :)
  refine ⟨hSave.trans hSeen, ?_, ?_⟩
  · rw [hDict]
  · rw [hDict]

theorem inflatePrepare_areas
    {flush : Flush}
    {s : InflStream}
    {result : Sum (Rc × InflStream) InflStream}
    (hPrepare : inflatePrepare flush s = some result) :
    AreasKept s (preparedInfl result) := by
  cases inflatePrepare_outcome hPrepare with
  | tooLarge _ => exact .refl s
  | overrun _ _ => exact ⟨rfl, rfl, Nat.le_refl _⟩
  | trailer _ hFlushed _ =>
      exact hFlushed.areas.trans (inflateTrailer_areas _)
  | full _ hFlushed _ _ => exact hFlushed.areas
  | header _ hFlushed _ _ hDone _ =>
      exact hFlushed.areas.trans hDone.areas
  | block _ hFlushed _ _ hDone _ =>
      exact hFlushed.areas.trans hDone.areas
  | noInput _ hFlushed _ _ hDone _ _ _ =>
      exact hFlushed.areas.trans hDone.areas
  | ready _ hFlushed _ _ hDone _ _ =>
      exact hFlushed.areas.trans hDone.areas

/-
  What an exchange is given and what it leaves: the header and
  the dictionary of the stream, and behind it its own one
  unless the final block was seen.
-/
structure Handed
    (s s' : InflStream) (ex : InflExchange) : Prop where
  tree : ex.req.inpScratch = s.save.tree
  hdrIb : ex.req.hdrIb = s.save.hdrIb
  inHdrBits : ex.req.inHdrBits = s.save.treeBits % 2 ^ 16
  given : ex.req.dictionary = s.dict.bytes
  inflStat : s'.asv.inflStat = ex.resp.inflStat
  left :
    finalEob ex.resp.inflStat = false →
      s'.dict.bytes = ex.resp.dictionary

/- Only the last dictionary may be left out. -/
theorem inflateExecute_last
    {flush : Flush}
    {env : InflateEnv}
    {s s₁ : InflStream}
    {ex : InflExchange}
    (hExec : inflateExecute flush env s = (.done ex, s₁)) :
    ex.req.saveDict = true ∨
      finalEob ex.resp.inflStat = true := by
  have hTry :
      ∀ req resp,
        inflateTry req resp = .done ex →
          ex.req.saveDict = req.saveDict := by
    intro req resp hDone
    unfold inflateTry at hDone
    split at hDone
    · cases hDone
    · split at hDone
      · cases hDone
      · cases hDone
        rfl
  unfold inflateExecute at hExec
  simp only at hExec
  split at hExec
  · split at hExec
    · split at hExec
      · rename_i hFinal
        cases hExec
        exact Or.inr hFinal
      · exact Or.inl (hTry _ _ (congrArg Prod.fst hExec))
    · rename_i hOther
      exact absurd (congrArg Prod.fst hExec) (hOther ex)
  · exact Or.inl (hTry _ _ (congrArg Prod.fst hExec))

/- The status of a response stays behind the checks. -/
theorem inflateCheck_asv
    (ex : InflExchange) (rc : Rc) (s : InflStream) :
    (inflateCheck ex rc s).2.asv = s.asv := by
  have hSeen :
      ∀ t : InflStream, (inflateEobSeen t).asv = t.asv := by
    intro t
    unfold inflateEobSeen
    split <;> rfl
  have hFinish :
      ∀ t : InflStream, (inflateFinish t).2.asv = t.asv := by
    intro t
    unfold inflateFinish
    simp only
    split
    · rcases (inflateTrailer_passed
        (inflateEobSeen (t.advance t.inpDataOffs))).1 with
        ⟨k, hPassed⟩
      exact (congrArg InflStream.asv hPassed.strm :).trans
        (hSeen _)
    · exact hSeen _
  unfold inflateCheck
  split
  · rfl
  · split
    · rfl
    · split
      · rfl
      · exact hFinish _

theorem inflateSubmit_hands
    {flush : Flush}
    {env : InflateEnv}
    {s : InflStream}
    {ret : InflRet}
    {ex : InflExchange}
    (hSubmit : inflateSubmit flush env s = some ret)
    (hSome : ret.exchange = some ex) :
    Handed s ret.strm ex := by
  cases inflateSubmit_outcome hSubmit with
  | needDict _ => cases hSome
  | failed _ => cases hSome
  | @done s₁ s₂ ex' rc hExec hUpdate =>
      cases hSome
      rcases (inflateExecute_done hExec).1 with
        ⟨saveDict, outDictLen, hReq⟩
      have hChanged := (postScratchUpd_changes hUpdate).1
      have hDict :
          s₂.dict = (getInflateAsv ex.resp s₁).dict :=
        (congrArg InflStream.dict hChanged.strm :)
      refine ⟨?_, ?_, ?_, ?_, ?_, fun hMore => ?_⟩
      · rw [hReq]
        rfl
      · rw [hReq]
        rfl
      · rw [hReq]
        rfl
      · rw [hReq]
        unfold InflReq.dictionary DictArea.bytes
          ByteMem.window
        simp [inflateRequest]
      · simp only
        rw [inflateCheck_asv, hChanged.inflStat]
        rfl
      · have hPage :
            s₁.dict.dict s₁.dict.wspPage =
              ex.resp.outDict := by
          have hSave :=
            (inflateExecute_last hExec).resolve_right
              (by rw [hMore]; decide)
          rcases inflateExecute_saved hExec with
            hNot | hHere
          · rw [hSave] at hNot
            cases hNot
          · exact hHere
        simp only
        rw [(inflateCheck_output ex s₂ rc).1, hDict]
        unfold DictArea.bytes InflResp.dictionary
        rw [← hPage]
        rfl

/-
  A call without an exchange keeps save area and dictionary,
  unless a DDCB has failed; otherwise they are handed on.
-/
theorem inflateStep_hands
    {src : ByteMem}
    {s s' : InflStream}
    {event : InflateEvent}
    (hStep : inflateStep src s event s') :
    (event.exchange = none →
      event.rc = .streamError ∨ event.rc = .needDict ∨
        AreasKept s s') ∧
      ∀ ex, event.exchange = some ex →
        Handed s s' ex := by
  rcases event with ⟨call, rc, exchange⟩
  unfold inflateStep zedcInflate at hStep
  have hOffer : AreasKept s (s.offer src call) :=
    ⟨rfl, rfl, Nat.le_refl _⟩
  cases hPrepare : inflatePrepare call.flush
      (s.offer src call) with
  | none =>
      simp only [hPrepare] at hStep
      cases hStep
  | some result =>
      have hKept :=
        hOffer.trans (inflatePrepare_areas hPrepare)
      simp only [hPrepare] at hStep
      rcases result with ⟨rc₁, s₁⟩ | s₁
      · cases hStep
        exact ⟨fun _ => Or.inr (Or.inr hKept),
          fun ex hEx => by cases hEx⟩
      · refine ⟨fun hNone => ?_, fun ex hEx => ?_⟩
        · simp only at hNone
          subst hNone
          generalize hRet :
            (⟨rc, s', none⟩ : InflRet) = ret at hStep
          cases inflateSubmit_outcome hStep with
          | needDict _ =>
              cases hRet
              exact Or.inr (Or.inl rfl)
          | failed _ =>
              cases hRet
              exact Or.inl rfl
          | done _ _ => cases hRet
        · have hHands := inflateSubmit_hands hStep hEx
          have hSave : s₁.save = s.save := hKept.save
          refine ⟨?_, ?_, ?_, hHands.given.trans hKept.bytes,
            hHands.inflStat, hHands.left⟩
          · rw [hHands.tree, hSave]
          · rw [hHands.hdrIb, hSave]
          · rw [hHands.inHdrBits, hSave]

------------------------------------------------------------
-- A Card That Decompresses
------------------------------------------------------------

/-
  A card that decompresses: from the block header and the
  dictionary it is given it reads on in the data, produces
  what it has read, and leaves the header of the block it has
  stopped in and the end of the output as dictionary.
-/
def Decompresses (ex : InflExchange) : Prop :=
  ∀ d : Decoder,
    HeaderNames ex.req.header d.mode →
    d.window = lastBytes ex.req.dictionary →
    (d.offset + ex.req.data.length) % 8 = 0 →
      ∃ d',
        Reads d ex.consumed ex.produced d' ∧
          if finalEob ex.resp.inflStat then d'.mode = .done
          else
            HeaderNames ex.stopHeader d'.mode ∧
              d'.window = lastBytes ex.resp.dictionary

/-
  An exchange that keeps a stream decoding: it counts what it
  has processed, a new header can be moved as a whole, behind
  the final block no whole byte of the scratch is left, what
  had no space is in a dictionary that is saved, and the
  output is that of a decoder.
-/
structure DecodingExchange (ex : InflExchange) : Prop where
  counted :
    (HonestMore ex ∧
        (ex.resp.processed ≠ 0 → ex.found = true →
          HdrKept ex)) ∨
      (HonestFinal ex ∧ EndsBehindScratch ex)
  reported : OutputReported ex
  saved : ParksSaved ex
  decodes : Decompresses ex

/-
  A call in which no DDCB fails, and the one it submits is a
  step of decoding.
-/
structure DecodingEvent (event : InflateEvent) : Prop where
  streamError : event.rc ≠ .streamError
  needDict : event.rc ≠ .needDict
  exchange :
    ∀ ex, event.exchange = some ex → DecodingExchange ex

theorem DecodingEvent.position
    {event : InflateEvent}
    (hEvent : DecodingEvent event) :
    HonestPosition event := by
  intro ex hEx
  rcases (hEvent.exchange ex hEx).counted with
    ⟨hMore, _⟩ | hFinal
  · exact Or.inl hMore
  · exact Or.inr hFinal

/- All output is stored or waits at the dictionary's end. -/
structure GivenOut
    (trace : List InflateEvent)
    (s : InflStream) : Prop where
  output :
    s.nextOut ++ s.dict.pending = producedBytes trace
  inside : ParkedInside s

/-
  The decoder that a run has come to: it has read all bits
  that were processed, and header and dictionary are those of
  the stream.
-/
structure Decoded
    (src : ByteMem)
    (trace : List InflateEvent)
    (s : InflStream)
    (d : Decoder) : Prop where
  reads :
    Reads (.start []) (consumedBits trace)
      (producedBytes trace) d
  taken :
    ∃ n, consumedBits trace <+:
      bitsOf (src.window s.prefx.idx n)
  goesOn :
    finalEob s.asv.inflStat = false →
      HeaderNames s.save.header d.mode ∧
        d.window = lastBytes s.dict.bytes
  ended : finalEob s.asv.inflStat = true → d.mode = .done
  gone : HeaderGone s ∨ consumedBits trace = []
  drained :
    Returned .streamEnd trace → s.dict.obytesInDict = 0

/- The decoder in front of a stream. -/
theorem decoded_init (src : ByteMem) (s₀ : InflStream) :
    Decoded src [] (inflateInitState s₀) (.start []) := by
  refine ⟨.nothing _, ⟨0, List.nil_prefix⟩,
    fun _ => ⟨?_, rfl⟩, fun hEnd => ?_, Or.inr rfl,
    fun _ => rfl⟩
  · have hHeader :
        (inflateInitState s₀).save.header = [] := by
      apply List.eq_nil_of_length_eq_zero
      rw [SaveArea.length_header]
      rfl
    rw [hHeader, headerNames_nil]
    rfl
  · have hMore : finalEob 0 = false := by decide
    exact absurd (hMore.symm.trans hEnd) (by decide)

section Step

variable {src : ByteMem} {trace : List InflateEvent}
variable {s s' s₁ s₂ : InflStream} {event : InflateEvent}
variable {d : Decoder} {ex : InflExchange} {rc : Rc}
variable {pages : Bool → ByteMem}

/- The header of a request is that of the stream. -/
theorem Handed.header
    (hHanded : Handed s s' ex)
    (hBits : s.save.treeBits < 2 ^ 16) :
    ex.req.header = s.save.header := by
  unfold InflReq.header SaveArea.header
  rw [hHanded.tree, hHanded.hdrIb, hHanded.inHdrBits,
    Nat.mod_eq_of_lt hBits]

/- The data of a request are the next bits of the stream. -/
theorem Accounted.data_next
    (hAcc : Accounted src trace s)
    (hFed : FedFrom src s)
    (hParts : RequestParts s ex) :
    consumedBits trace ++ ex.req.data =
      bitsOf
        (src.window s.prefx.idx
          (s.totalIn - s.prefx.idx + s.nextIn.length)) := by
  have hHeader := hAcc.header
  have hAt :
      s.prefx.idx + (s.totalIn - s.prefx.idx) = s.totalIn := by
    omega
  rw [hParts.data, ← List.append_assoc, hAcc.bits,
    ByteMem.window_add, hAt, bitsOf_append, ← hFed]

/- The decoder of the card is the one of the stream. -/
theorem Decoded.exchange
    (hDecoded : Decoded src trace s d)
    (hMore : finalEob s.asv.inflStat = false)
    (hAcc : Accounted src trace s)
    (hAcc₁ : Accounted src trace s₁)
    (hFed : FedFrom src s₁)
    (hParts : RequestParts s₁ ex)
    (hHanded : Handed s s' ex)
    (hCard : Decompresses ex) :
    ∃ d',
      Reads (.start [])
          (consumedBits trace ++ ex.consumed)
          (producedBytes trace ++ ex.produced) d' ∧
        if finalEob ex.resp.inflStat then d'.mode = .done
        else
          HeaderNames ex.stopHeader d'.mode ∧
            d'.window = lastBytes ex.resp.dictionary := by
  rcases hDecoded.goesOn hMore with ⟨hHeader, hWindow⟩
  have hOffset := hDecoded.reads.offset
  have hStart : (Decoder.start []).offset = 0 := rfl
  have hBits :=
    congrArg List.length (hAcc₁.data_next hFed hParts)
  rw [List.length_append, length_bitsOf] at hBits
  rcases hCard d
      (by
        rw [hHanded.header hAcc.save.treeBits]
        exact hHeader)
      (by rw [hHanded.given, hWindow])
      (by omega) with
    ⟨d', hReads, hLeft⟩
  exact ⟨d', hDecoded.reads.trans hReads, hLeft⟩

/- The bits that were read are the first of the stream. -/
theorem Accounted.taken_next
    (hAcc : Accounted src trace s)
    (hFed : FedFrom src s)
    (hParts : RequestParts s ex) :
    consumedBits trace ++ ex.consumed <+:
      bitsOf
        (src.window s.prefx.idx
          (s.totalIn - s.prefx.idx + s.nextIn.length)) := by
  rw [← hAcc.data_next hFed hParts]
  exact List.prefix_append_right_inj _ |>.mpr
    (List.take_prefix _ _)

/- The update keeps the header to go on with. -/
theorem Sent.keeps_header
    (hSent : Sent src trace s event s' s₁ s₂ ex rc pages)
    (hMore : HonestMore ex)
    (hKept :
      ex.resp.processed ≠ 0 → ex.found = true →
        HdrKept ex) :
    s'.save.header = ex.stopHeader := by
  have hDone :=
    hSent.accounted.done hSent.gone hSent.fed
      hSent.requesting hSent.parts hMore hSent.update
  have hCheck := hSent.check
  rw [hDone.2.2.1] at hCheck
  have hTaken : s' = s₂.taken ex :=
    (congrArg Prod.snd hCheck).symm
  rcases (bitsConserved_iff hSent.requesting hSent.parts
      hMore.honest hMore.fits hMore.more).mpr hKept with
    ⟨t, hUpdate, hHeader, _⟩
  rw [hSent.update] at hUpdate
  cases hUpdate
  rw [hTaken]
  exact hHeader

/- The header is passed by the time of an exchange. -/
theorem Sent.prefx
    (hSent : Sent src trace s event s' s₁ s₂ ex rc pages) :
    s'.prefx = s₁.prefx := by
  have hCheck := hSent.check
  have hKept := (inflateCheck_kept ex rc s₂).prefx
  rw [hCheck] at hKept
  have hChanged := (postScratchUpd_changes hSent.update).1
  exact hKept.trans
    (congrArg InflStream.prefx hChanged.strm :)

theorem Sent.gone_next
    (hSent : Sent src trace s event s' s₁ s₂ ex rc pages) :
    HeaderGone s' := by
  have hCheck := hSent.check
  have hKept := (inflateCheck_kept ex rc s₂).format
  rw [hCheck] at hKept
  have hChanged := (postScratchUpd_changes hSent.update).1
  have hFormat : s'.format = s₁.format :=
    hKept.trans (congrArg InflStream.format hChanged.strm :)
  unfold HeaderGone
  rw [hFormat, hSent.prefx]
  exact hSent.gone

/- What a call gives out or parks is what was produced. -/
theorem GivenOut.step
    (hGiven : GivenOut trace s)
    (hEvent : DecodingEvent event)
    (hStep : inflateStep src s event s') :
    GivenOut (trace ++ [event]) s' := by
  have hInside :
      ParkedInside (s.offer src event.call) :=
    hGiven.inside
  have hDelivers :=
    zedcInflate_delivers hInside hStep
      (fun ex hEx => (hEvent.exchange ex hEx).reported)
      (fun ex hEx => (hEvent.exchange ex hEx).saved)
  refine ⟨?_, hDelivers.inside⟩
  have hOutput := hDelivers.output
  have hBefore :
      (s.offer src event.call).nextOut ++
          (s.offer src event.call).dict.pending =
        producedBytes trace := hGiven.output
  rw [hBefore] at hOutput
  rw [producedBytes_append]
  exact hOutput

/- Once the end was returned, nothing is pending. -/
theorem Decoded.drained_next
    (hDecoded : Decoded src trace s d)
    (hInv : PositionInv src trace s)
    (hEvent : DecodingEvent event)
    (hStep : inflateStep src s event s')
    (hEnd : Returned .streamEnd (trace ++ [event])) :
    s'.dict.obytesInDict = 0 := by
  rcases returned_append.mp hEnd with hBefore | hNow
  · have hNone := hDecoded.drained hBefore
    cases hInv with
    | blocks _ _ _ hNoEnd => exact absurd hBefore hNoEnd
    | trailer hAt _ =>
        rcases (inflateStep_hands hStep).1
            (hAt.step hStep).1 with hRc | hRc | hKept
        · exact absurd hRc hEvent.streamError
        · exact absurd hRc hEvent.needDict
        · have hLess := hKept.less
          omega
  · exact zedcInflate_streamEnd hStep hNow

/- A call in which no request is made. -/
theorem Decoded.idle
    (hDecoded : Decoded src trace s d)
    (hEvent : DecodingEvent event)
    (hStep : inflateStep src s event s')
    (hNone : event.exchange = none)
    (hTaken :
      ∃ n, consumedBits trace <+:
        bitsOf (src.window s'.prefx.idx n))
    (hStat :
      finalEob s'.asv.inflStat = finalEob s.asv.inflStat)
    (hGone : HeaderGone s' ∨ consumedBits trace = [])
    (hDrained :
      Returned .streamEnd (trace ++ [event]) →
        s'.dict.obytesInDict = 0) :
    Decoded src (trace ++ [event]) s' d := by
  have hBits :
      consumedBits (trace ++ [event]) =
        consumedBits trace := by
    rw [consumedBits_append, hNone]
    exact List.append_nil _
  have hBytes :
      producedBytes (trace ++ [event]) =
        producedBytes trace := by
    rw [producedBytes_append, hNone]
    exact List.append_nil _
  rcases (inflateStep_hands hStep).1 hNone with
    hRc | hRc | hKept
  · exact absurd hRc hEvent.streamError
  · exact absurd hRc hEvent.needDict
  · refine ⟨?_, ?_, fun hMore => ?_, fun hEnd => ?_, ?_,
      hDrained⟩
    · rw [hBits, hBytes]
      exact hDecoded.reads
    · rw [hBits]
      exact hTaken
    · rw [hKept.save, hKept.bytes]
      exact hDecoded.goesOn (hStat.symm.trans hMore)
    · exact hDecoded.ended (hStat.symm.trans hEnd)
    · rw [hBits]
      exact hGone

/- Every call keeps the stream decoding. -/
theorem Decoded.step
    (hDecoded : Decoded src trace s d)
    (hInv : PositionInv src trace s)
    (hEvent : DecodingEvent event)
    (hStep : inflateStep src s event s') :
    ∃ d', Decoded src (trace ++ [event]) s' d' := by
  have hDrained :=
    hDecoded.drained_next hInv hEvent hStep
  cases hInv with
  | trailer hAt hEnd =>
      rcases hAt.step hStep with
        ⟨hNone, hAt', hPrefx, _, _⟩
      refine ⟨d, hDecoded.idle hEvent hStep hNone ?_ ?_ ?_
        hDrained⟩
      · rw [hPrefx]
        exact hDecoded.taken
      · rw [hAt.final, hAt'.final]
      · unfold HeaderGone
        rw [hPrefx, hAt'.format]
        exact hDecoded.gone
  | blocks hAcc hLen hIdx hNoEnd =>
      rcases hAcc.call hStep with
        ⟨hNone, _, hAcc', _⟩ | ⟨s₁, s₂, ex, rc, pages, hSent⟩
      · refine ⟨d, hDecoded.idle hEvent hStep hNone ?_ ?_ ?_
          hDrained⟩
        · exact ⟨_, hAcc'.bits ▸ List.prefix_append _ _⟩
        · rw [hAcc.data.inflStat, hAcc'.data.inflStat]
        · apply hAcc'.begun.imp_right
          rintro ⟨hTotal, _⟩
          have hBits := hAcc'.bits
          rw [hTotal, Nat.sub_self, ByteMem.window_zero]
            at hBits
          exact (List.append_eq_nil_iff.mp hBits).1
      · have hEx := hEvent.exchange ex hSent.exchange
        have hHanded :=
          (inflateStep_hands hStep).2 ex hSent.exchange
        rcases hDecoded.exchange hAcc.data.inflStat hAcc
            hSent.accounted hSent.fed hSent.parts hHanded
            hEx.decodes with
          ⟨d', hReads, hLeft⟩
        have hTaken :=
          hSent.accounted.taken_next hSent.fed hSent.parts
        refine ⟨d', ?_, ?_, fun hMore => ?_, fun hEnd => ?_,
          Or.inl ?_, hDrained⟩
        · rw [consumedBits_append, producedBytes_append,
            hSent.exchange]
          exact hReads
        · rw [consumedBits_append, hSent.exchange,
            hSent.prefx]
          exact ⟨_, hTaken⟩
        · rw [hHanded.inflStat] at hMore
          rw [hMore] at hLeft
          rcases hEx.counted with
            ⟨hHonest, hKept⟩ | ⟨hFinal, _⟩
          · rw [hSent.keeps_header hHonest hKept,
              hHanded.left hMore]
            exact hLeft
          · rw [hFinal.final] at hMore
            cases hMore
        · rw [hHanded.inflStat] at hEnd
          rw [hEnd] at hLeft
          exact hLeft
        · exact hSent.gone_next

end Step

/- The output of every run in which no DDCB fails. -/
theorem givenOut_of_run
    {src : ByteMem}
    {s₀ s : InflStream}
    {trace : List InflateEvent}
    (hRun :
      Run (inflateStep src) (inflateInitState s₀) trace s)
    (hCard : ∀ event ∈ trace, DecodingEvent event) :
    GivenOut trace s :=
  hRun.invariant_of_labels GivenOut DecodingEvent
    ⟨rfl, Nat.zero_le _⟩
    (fun _ _ _ _ hOk hGiven hStep =>
      hGiven.step hOk hStep)
    hCard

/- And such a run decodes its stream. -/
theorem decoded_of_run
    {src : ByteMem}
    {s₀ s : InflStream}
    {trace : List InflateEvent}
    (hRun :
      Run (inflateStep src) (inflateInitState s₀) trace s)
    (hCard : ∀ event ∈ trace, DecodingEvent event) :
    PositionInv src trace s ∧ ∃ d, Decoded src trace s d :=
  hRun.invariant_of_labels
    (fun trace s =>
      PositionInv src trace s ∧
        ∃ d, Decoded src trace s d)
    DecodingEvent
    ⟨.blocks (accounted_init src s₀) rfl rfl
      (by simp [Returned]), _, decoded_init src s₀⟩
    (fun _ _ _ _ hOk hInv hStep => by
      rcases hInv with ⟨hInv, d, hDecoded⟩
      exact ⟨position_step hInv hOk.position hStep,
        hDecoded.step hInv hOk hStep⟩)
    hCard

/- What holds once the end of the stream is returned. -/
theorem Decoded.returned
    {src : ByteMem}
    {s : InflStream}
    {trace : List InflateEvent}
    {d : Decoder}
    (hDecoded : Decoded src trace s d)
    (hInv : PositionInv src trace s)
    (hEnd : Returned .streamEnd trace) :
    d.mode = .done ∧ s.dict.pending = [] ∧
      s.totalIn =
        dataEnd trace s + trailerLen s.format := by
  refine ⟨?_, ?_, ?_⟩
  · cases hInv with
    | blocks _ _ _ hNoEnd => exact absurd hEnd hNoEnd
    | trailer hAt _ => exact hDecoded.ended hAt.final
  · apply List.eq_nil_of_length_eq_zero
    rw [DictArea.length_pending]
    exact hDecoded.drained hEnd
  · exact hInv.exact.ended hEnd

/-
  However a stream is cut into calls, and whatever output is
  parked in between: as long as no DDCB fails and every one is
  a step of decoding, one decoder has read the bits processed,
  the first ones behind the format header, and all of its
  output is with the caller or pending.
  Once the end is returned, the decoder has come to the end of
  the final block and the caller has everything.
-/
theorem inflate_decodes
    {src : ByteMem}
    {s₀ s : InflStream}
    {trace : List InflateEvent}
    (hRun :
      Run (inflateStep src) (inflateInitState s₀) trace s)
    (hCard : ∀ event ∈ trace, DecodingEvent event) :
    ∃ d,
      Reads (.start []) (consumedBits trace)
          (s.nextOut ++ s.dict.pending) d ∧
        (∃ n, consumedBits trace <+:
          bitsOf (src.window s.prefx.idx n)) ∧
        (Returned .streamEnd trace →
          d.mode = .done ∧ s.dict.pending = [] ∧
            s.totalIn =
              dataEnd trace s + trailerLen s.format) := by
  rcases decoded_of_run hRun hCard with ⟨hInv, d, hDecoded⟩
  refine ⟨d, ?_, hDecoded.taken, hDecoded.returned hInv⟩
  rw [(givenOut_of_run hRun hCard).output]
  exact hDecoded.reads

------------------------------------------------------------
-- One Letter
------------------------------------------------------------

/- A final fixed block of one letter, in eighteen bits. -/
def letterBlock : ByteMem := fun i =>
  [0x4b, 0x04, 0x00].getD i 0

/- The letter, and the end of the final block. -/
def letterFound : InflResp :=
  { quietResp with
    inflStat := 0x05
    inpProcessed := 2
    procBits := 2
    outpReturned := 1
    outBuff := fun _ => 0x61 }

/- All bytes of the block are offered. -/
def letterOffer : InflateCall where
  availIn := 3
  availOut := 16
  flush := .noFlush
  env := ⟨fun _ _ => letterFound⟩

/- The bits of the block stand for the letter. -/
theorem reads_letter
    {d : Decoder} (hMode : d.mode = .header) :
    ∃ d',
      Reads d ((bitsOf [0x4b, 0x04, 0x00]).take 18) [0x61]
          d' ∧
        d'.mode = .done := by
  have hSymbol :
      (symbol fixedLits fixedDists).run
          [true, false, false, true, false, false, false,
            true] =
        some (.literal 0x61, []) := by
    decide +kernel
  have hHeader := reads_fixedHeader true hMode
  have hLetter := reads_literal
    (d := d.after 3 (.openFixed true, [])) rfl
    (List.cons_ne_nil _ _) hSymbol
  have hRead := hHeader.trans
    (hLetter.trans (reads_endOfBlock true rfl))
  have hBits :
      (bitsOf [0x4b, 0x04, 0x00]).take 18 =
        [true, true, false] ++
          ([true, false, false, true, false, false, false,
            true] ++ BlockBits.endOfBlock) := by decide
  rw [hBits]
  exact ⟨_, hRead, rfl⟩

theorem decodingEvent_letter :
    DecodingEvent (letterOffer.event letterBlock rawStream) := by
  refine ⟨by decide, by decide, fun ex hEx => ?_⟩
  cases hEx
  refine ⟨Or.inr ⟨⟨by decide, by decide, by decide,
    by decide, by decide, by decide, by decide⟩, by decide⟩,
    ⟨by decide, by decide, fun hNone _ => ?_⟩,
    fun _ => rfl, fun d hHeader _ _ => ?_⟩
  · exact absurd hNone (by decide)
  · have hMode : d.mode = .header :=
      (headerNames_nil d.mode).mp hHeader
    rcases reads_letter hMode with ⟨d', hReads, hDone⟩
    exact ⟨d', hReads, hDone⟩

theorem inflate_decodes_letter :
    ∃ d,
      Reads (.start [])
          (consumedBits
            [letterOffer.event letterBlock rawStream])
          ((letterOffer.ret letterBlock
              rawStream).strm.nextOut ++
            (letterOffer.ret letterBlock
              rawStream).strm.dict.pending) d ∧
        d.mode = .done := by
  have hRun :
      Run (inflateStep letterBlock) rawStream
        ([] ++ [letterOffer.event letterBlock rawStream])
        (letterOffer.ret letterBlock rawStream).strm :=
    Run.next Run.start (inflateStep_ret (by decide))
  rcases inflate_decodes hRun (fun event hEvent => by
      rw [List.nil_append, List.mem_singleton] at hEvent
      rw [hEvent]
      exact decodingEvent_letter) with
    ⟨d, hReads, _, hEnd⟩
  have hReturned :
      Returned .streamEnd
        [letterOffer.event letterBlock rawStream] :=
    ⟨_, List.mem_singleton_self _, by decide⟩
  exact ⟨d, hReads, (hEnd hReturned).1⟩

end Zedc
