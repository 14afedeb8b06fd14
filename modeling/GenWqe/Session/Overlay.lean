import GenWqe.Session.Deflate

/-
  A deflate stream with another `ZEDC_FLG_SKIP_LAST_DICT` and
  with other dictionary pages: but for the DDCB itself no part
  of `zedc_deflate` looks at either.

  Key definitions include:
    * `overlay`

  Main results:
    * `deflatePrepare_overlay`, `deflateFlush_overlay`
    * `deflateProcessResults_overlay`
-/

------------------------------------------------------------
-- The Overlay
------------------------------------------------------------

namespace Session

open Zedc Hardware

/- The stream with another flag and other pages. -/
@[simps] def overlay
    (skip : Bool)
    (pages : Bool → ByteMem)
    (s : DeflStream) : DeflStream :=
  { s with
    flgSkipLastDict := skip
    dict := pages }

section Overlay

variable (skip : Bool) (pages : Bool → ByteMem)
variable (s : DeflStream)

/- The FIFO is drained into the output, byte by byte. -/
theorem deflateWriteOutFifo_overlay :
    deflateWriteOutFifo (overlay skip pages s) =
      overlay skip pages (deflateWriteOutFifo s) := by
  -- on the fuel, which is the space for output
  have hLoop :
      ∀ fuel (s : DeflStream),
        deflateWriteOutFifoLoop fuel (overlay skip pages s) =
          overlay skip pages
            (deflateWriteOutFifoLoop fuel s) := by
    intro fuel
    induction fuel with
    | zero => exact fun _ => rfl
    | succ fuel ih =>
        intro s
        unfold deflateWriteOutFifoLoop
        simp only [overlay_availOut,
          overlay_outFifo]
        split
        · rfl
        · cases s.outFifo.fifoPop with
          | none => rfl
          | some popped =>
              rcases popped with ⟨data, f⟩
              have hPush :
                  pushOutputByte
                      { overlay skip pages s with
                        outFifo := f } data =
                    overlay skip pages
                      (pushOutputByte
                        { s with outFifo := f } data) := by
                unfold pushOutputByte
                simp only [overlay_availOut]
                split <;> rfl
              exact (congrArg _ hPush).trans (ih _)
  exact hLoop _ _

/- The header is built from the format and the GZIP header. -/
theorem deflateAddHeader_overlay (now : UInt32) :
    deflateAddHeader now (overlay skip pages s) =
      Prod.map id (overlay skip pages)
        (deflateAddHeader now s) := by
  unfold deflateAddHeader
  rw [overlay_format]
  cases s.format with
  | defl => rfl
  | gzip =>
      simp only [overlay_gzipHead, overlay_outFifo]
      cases s.gzipHead with
      | none => simp only [Prod.map_apply, id_eq, overlay]
      | some h =>
          by_cases hLong : gzipHeadTooLong h = true
          · simp only [hLong, if_true, Prod.map_apply, id_eq,
              overlay]
          · simp only [hLong, Bool.false_eq_true, if_false,
              Prod.map_apply, id_eq, overlay]
  | zlib =>
      by_cases hDict : s.havedict = true
      · simp only [hDict, if_true, Prod.map_apply, id_eq,
          overlay]
      · simp only [hDict, Bool.false_eq_true, if_false,
          Prod.map_apply, id_eq, overlay]

/- The end of the stream: final block, trailer, and the FIFO. -/
theorem deflateFinish_overlay :
    deflateFinish (overlay skip pages s) =
      overlay skip pages (deflateFinish s) := by
  have hEob :
      deflateWriteEob (overlay skip pages s) =
        overlay skip pages (deflateWriteEob s) := by
    unfold deflateWriteEob
    simp only [overlay_eobAdded, overlay_onumbits]
    split
    · rfl
    · split <;> rfl
  have hTrailer :
      ∀ s : DeflStream,
        deflateAddTrailer (overlay skip pages s) =
          overlay skip pages (deflateAddTrailer s) := by
    intro s
    unfold deflateAddTrailer
    simp only [overlay_eobAdded, overlay_trailerAdded]
    split
    · rfl
    · split <;> rfl
  unfold deflateFinish
  rw [hEob, hTrailer, deflateWriteOutFifo_overlay]

/- All that `zedc_deflate` does in front of a DDCB. -/
theorem deflatePrepare_overlay
    (flush : Flush) (now : UInt32) :
    deflatePrepare flush now (overlay skip pages s) =
      Sum.map (Prod.map id (overlay skip pages))
        (overlay skip pages)
        (deflatePrepare flush now s) := by
  have hExits :
      ∀ s : DeflStream,
        deflateExits (overlay skip pages s) =
          Sum.map (Prod.map id (overlay skip pages))
            (overlay skip pages) (deflateExits s) := by
    intro s
    have hDone :
        deflateDone (overlay skip pages s) =
          deflateDone s := rfl
    unfold deflateExits
    rw [hDone]
    simp only [overlay_availOut, overlay_nextIn]
    split
    · rfl
    · split
      · rfl
      · split <;> rfl
  have hDrained :
      ∀ s : DeflStream,
        deflatePrepareDrained flush (overlay skip pages s) =
          Sum.map (Prod.map id (overlay skip pages))
            (overlay skip pages)
            (deflatePrepareDrained flush s) := by
    intro s
    unfold deflatePrepareDrained
    simp only [overlay_availOut, overlay_nextIn]
    split
    · rfl
    · split
      · rw [deflateFinish_overlay]
        exact hExits _
      · exact hExits s
  have hHeader :
      (if (overlay skip pages s).headerAdded then
          (false, overlay skip pages s)
        else deflateAddHeader now (overlay skip pages s)) =
        Prod.map id (overlay skip pages)
          (if s.headerAdded then (false, s)
            else deflateAddHeader now s) := by
    simp only [overlay_headerAdded]
    split
    · rfl
    · exact deflateAddHeader_overlay skip pages s now
  unfold deflatePrepare
  rw [hHeader]
  -- a header that is too long ends the call at once
  rcases (if s.headerAdded then (false, s)
    else deflateAddHeader now s) with ⟨_ | _, s₁⟩
  · show
      deflatePrepareDrained flush
          (deflateWriteOutFifo (overlay skip pages s₁)) = _
    rw [deflateWriteOutFifo_overlay]
    exact hDrained _
  · rfl

/- What the flush mode asks for behind one. -/
theorem deflateFlush_overlay (flush : Flush) :
    deflateFlush flush (overlay skip pages s) =
      overlay skip pages (deflateFlush flush s) := by
  have hMarker :
      deflateSyncFlush (overlay skip pages s) =
        overlay skip pages (deflateSyncFlush s) := by
    unfold deflateSyncFlush
    by_cases hNone : s.onumbits = 0
    · simp only [overlay, hNone, if_true]
    · by_cases hMany : s.onumbits > 6
      · simp only [overlay, hNone, hMany, if_true,
          if_false]
      · simp only [overlay, hNone, hMany, if_false]
  have hSync :
      deflateWriteOutFifo
          (deflateSyncFlush (overlay skip pages s)) =
        overlay skip pages
          (deflateWriteOutFifo (deflateSyncFlush s)) := by
    rw [hMarker, deflateWriteOutFifo_overlay]
  -- only the full flush changes the dictionary, by its length
  cases flush with
  | finish =>
      unfold deflateFlush
      simp only [overlay_nextIn]
      split
      · exact deflateFinish_overlay skip pages s
      · rfl
  | syncFlush => exact hSync
  | partialFlush => exact hSync
  | fullFlush =>
      exact congrArg
        (fun s => { s with dictLen := 0 }) hSync
  | noFlush => rfl
  | block => rfl
  | other value => rfl

/- The last bits of the output are kept for the next DDCB. -/
theorem deflateStoreObits_overlay (resp : DeflResp) :
    deflateStoreObits resp (overlay skip pages s) =
      overlay skip pages (deflateStoreObits resp s) := by
  unfold deflateStoreObits
  simp only [overlay_dynHuffmanSupported,
    overlay_outFifo, overlay_obyte]
  rfl

/- The results are checked against the buffers of the call. -/
theorem deflateProcessResults_overlay (resp : DeflResp) :
    deflateProcessResults resp (overlay skip pages s) =
      Prod.map id (overlay skip pages)
        (deflateProcessResults resp s) := by
  have hIn : (overlay skip pages s).availIn = s.availIn := rfl
  unfold deflateProcessResults
  rw [hIn]
  simp only [overlay_availOut,
    overlay_dynHuffmanSupported]
  split
  · rfl
  · split
    · rfl
    · split
      · rfl
      · split
        · rfl
        · exact congrArg (fun s => (Rc.ok, s))
            (deflateStoreObits_overlay skip pages
              { s with
                nextIn :=
                  s.nextIn.drop resp.inpProcessed.toNat
                totalIn :=
                  s.totalIn + resp.inpProcessed.toNat
                nextOut :=
                  s.nextOut ++
                    resp.outBuff.window 0
                      resp.outpReturned.toNat
                availOut :=
                  s.availOut - resp.outpReturned.toNat
                totalOut :=
                  s.totalOut + resp.outpReturned.toNat }
              resp)

/-
  The call is wound up in the same way whichever DDCB was
  executed.
-/
theorem deflateWindUp_overlay
    (flush : Flush) (ex ex' : DeflExchange) :
    (deflateWindUp flush ex' (overlay skip pages s)).rc =
        (deflateWindUp flush ex s).rc ∧
      (deflateWindUp flush ex' (overlay skip pages s)).strm =
        overlay skip pages
          (deflateWindUp flush ex s).strm := by
  unfold deflateWindUp
  rw [deflateFlush_overlay]
  exact ⟨rfl, rfl⟩

end Overlay

end Session
