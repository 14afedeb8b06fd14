import GenWqe.Inflate.Calls
import GenWqe.Inflate.Update

/-
  What the accelerator is offered with an inflate DDCB, in the
  terms of the request alone, and which responses to it are
  honest.

  Key definitions include:
    * `InflReq.offered`
    * `InflExchange.stopHeader`
    * `HonestExchange` and `FitsBuffer`

  Main results:
    * `Answered.offeredStream`
    * `HonestExchange.asvHonest`
-/

------------------------------------------------------------
-- What a Card Is Offered
------------------------------------------------------------

namespace Zedc

open Bits

/- Behind the header, the scratch starts at a 64-bit word. -/
def InflReq.scratchStart (req : InflReq) : Nat :=
  (req.inHdrBits + req.hdrIb + 63) / 64 * 8

/- The bytes of the scratch. -/
def InflReq.scratchLen (req : InflReq) : Nat :=
  req.inScratchLen - req.scratchStart

/- The bits of the header. -/
def InflReq.header (req : InflReq) : List Bool :=
  ((bitsOf
    (req.inpScratch.window 0
      ((req.hdrIb + req.inHdrBits + 7) / 8))).drop
        req.hdrIb).take req.inHdrBits

/- The bits behind the header: scratch, then input. -/
def InflReq.data (req : InflReq) : List Bool :=
  (bitsOf
    (req.inpScratch.window req.scratchStart
      req.scratchLen)).drop req.scratchIb ++
    bitsOf req.inBuff

/- All bits that are offered. -/
def InflReq.offered (req : InflReq) : List Bool :=
  req.header ++ req.data

/- The bits that were decompressed of the data. -/
def InflExchange.consumed
    (ex : InflExchange) : List Bool :=
  ex.req.data.take (ex.resp.processed - ex.req.inHdrBits)

------------------------------------------------------------
-- What a Card Answers
------------------------------------------------------------

namespace InflExchange

/- A new header is reported, not the one that was offered. -/
def newHeader (ex : InflExchange) : Bool :=
  0 < ex.resp.outHdrBits.toNat &&
    (0 < ex.resp.hdrStartTotal || ex.req.inHdrBits == 0)

/- Processing stopped just at the end of a block. -/
def onEob (ex : InflExchange) : Bool :=
  passedEob ex.resp.inflStat && reachedEob ex.resp.inflStat

/- A new header of the block in which processing stopped. -/
def found (ex : InflExchange) : Bool :=
  ex.newHeader && !ex.onEob

/- The header of the block in which processing stopped. -/
def stopHdr (ex : InflExchange) : List Bool :=
  if ex.found then
    (ex.req.offered.drop ex.resp.hdrStartTotal).take
      ex.resp.outHdrBits.toNat
  else if passedEob ex.resp.inflStat then []
  else ex.req.header

/- Its length. -/
def stopHdrBits (ex : InflExchange) : Nat :=
  if ex.found then ex.resp.outHdrBits.toNat
  else if passedEob ex.resp.inflStat then 0
  else ex.req.inHdrBits

/- Processing stopped inside of a stored block. -/
def cut (ex : InflExchange) : Bool :=
  ex.resp.copyblockLen != 0 &&
    hdrTypeStored ex.resp.inflStat &&
    (ex.resp.outHdrBits.toNat != 0 && !ex.onEob)

/-
  The header to go on with: a cut stored block is continued
  with one of the same BFINAL, for the bytes that are left.
-/
def stopHeader (ex : InflExchange) : List Bool :=
  if ex.resp.processed = 0 then ex.req.header
  else if ex.cut then
    bitsOf
      (storedHeader (hdrBfinal ex.resp.inflStat)
        ex.resp.copyblockLen)
  else ex.stopHdr

/- Where the new header is, from the begin of the scratch. -/
def hdrAt (ex : InflExchange) : Nat :=
  ex.resp.hdrStartTotal + ex.req.scratchIb -
    ex.req.inHdrBits

/- The bytes that hold it. -/
def hdrLen (ex : InflExchange) : Nat :=
  (ex.resp.outHdrBits.toNat + ex.hdrAt % 8 + 7) / 8

/- Where processing stopped, from the begin of the scratch. -/
def stopAt (ex : InflExchange) : Nat :=
  ex.resp.processed + ex.req.scratchIb - ex.req.inHdrBits

/- The ignored bits in front of the header to go on with. -/
def stopHdrIb (ex : InflExchange) : Nat :=
  if ex.found then ex.hdrAt % 8
  else if passedEob ex.resp.inflStat then 0
  else ex.req.hdrIb

/-
  The bytes that are kept: all that are left, or with a full
  output buffer those of the scratch and a partial one.
-/
def keepLen (ex : InflExchange) : Nat :=
  if ex.req.outBuffLen > ex.resp.outpReturned.toNat then
    ex.req.scratchLen + ex.req.inBuff.length - ex.stopAt / 8
  else
    max ex.req.scratchLen ((ex.stopAt + 7) / 8) -
      ex.stopAt / 8

end InflExchange

/-
  An honest response counts bits of what was offered, stops
  behind the header it was given, and reports a new header
  that it has read. A stored block that was cut has a header.
-/
structure HonestExchange (ex : InflExchange) : Prop where
  procBits : ex.resp.procBits.toNat < 8
  behind : ex.req.inHdrBits ≤ ex.resp.processed
  inside : ex.resp.processed ≤ ex.req.offered.length
  newHdr :
    ex.newHeader = true →
      ex.resp.hdrStartTotal + ex.resp.outHdrBits.toNat ≤
        ex.resp.processed
  outpReturned :
    ex.resp.outpReturned.toNat ≤ ex.req.outBuffLen
  nothing :
    ex.resp.processed = 0 → ex.resp.copyblockLen = 0
  stored :
    ex.cut = true →
      0 < ex.stopHdrBits ∧ ex.stopHdrBits ≤ 57

/- What must be kept fits into the header/scratch buffer. -/
structure FitsBuffer (ex : InflExchange) : Prop where
  header : ex.found = true → ex.hdrLen ≤ zedcTreeLen
  scratch :
    ex.keepLen ≠ 0 →
      (ex.stopHdrBits + ex.stopHdrIb + 63) / 64 * 8 +
        ex.keepLen ≤ zedcTreeLen
  nothing :
    ex.resp.processed = 0 →
      ex.req.inScratchLen + ex.req.inBuff.length ≤
        zedcTreeLen

------------------------------------------------------------
-- Requests of a Stream
------------------------------------------------------------

/- The stream with the results of an exchange noted. -/
def InflStream.answered
    (pages : Bool → ByteMem)
    (resp : InflResp)
    (s : InflStream) : InflStream :=
  getInflateAsv resp ((setInflateAsiv s).withPages pages)

/-
  A stream that makes requests: what it keeps is in order, and
  the input is not too large.
-/
structure Requesting (s : InflStream) : Prop where
  save : SaveOk s.save
  availIn : s.availIn ≤ zedcInflAvailInMax
  inpDataOffs : s.inpDataOffs = 0

/- An exchange the request of which the stream made. -/
structure RequestOf (s : InflStream) (ex : InflExchange) :
    Prop where
  made :
    ∃ saveDict outDictLen,
      ex.req =
        { inflateRequest s with
          saveDict := saveDict
          outDictLen := outDictLen }

theorem SaveOk.bits
    {a : SaveArea} (hOk : SaveOk a) :
    a.bits / 8 = a.scratchStart + a.scratchLen := by
  have hFits := hOk.fits
  have hWhole := hOk.whole
  have hAligned := hOk.aligned
  unfold zedcTreeLen at hFits
  unfold SaveArea.bits SaveArea.scratchStart
    SaveArea.scratchLen
  omega

theorem Requesting.offered
    {s : InflStream}
    (hReq : Requesting s)
    (pages : Bool → ByteMem)
    (resp : InflResp) :
    Offered (s.answered pages resp) := by
  have hBits := hReq.save.treeBits
  have hFits := hReq.save.fits
  unfold zedcTreeLen at hFits
  refine ⟨hReq.save, hReq.save.bits, ?_, ?_, hReq.availIn,
    hReq.inpDataOffs⟩
  · exact Nat.mod_eq_of_lt hBits
  · apply Nat.mod_eq_of_lt
    show s.save.treeBits + s.save.scratchBits < 2 ^ 32
    omega

section Bridge

variable {s : InflStream} {ex : InflExchange}

/- The parts of the request are those of the save area. -/
structure RequestParts
    (s : InflStream) (ex : InflExchange) : Prop where
  inHdrBits : ex.req.inHdrBits = s.save.treeBits
  hdrIb : ex.req.hdrIb = s.save.hdrIb
  scratchIb : ex.req.scratchIb = s.save.scratchIb
  tree : ex.req.inpScratch = s.save.tree
  inBuff : ex.req.inBuff = s.nextIn
  outBuffLen : ex.req.outBuffLen = s.availOut
  scratchStart : ex.req.scratchStart = s.save.scratchStart
  scratchLen : ex.req.scratchLen = s.save.scratchLen
  inScratchLen :
    ex.req.inScratchLen =
      s.save.scratchStart + s.save.scratchLen

theorem RequestOf.parts
    (hOf : RequestOf s ex)
    (hReq : Requesting s) :
    RequestParts s ex := by
  rcases hOf.made with ⟨saveDict, outDictLen, hMade⟩
  have hBits : s.save.treeBits % 2 ^ 16 = s.save.treeBits :=
    Nat.mod_eq_of_lt hReq.save.treeBits
  have hInHdrBits : ex.req.inHdrBits = s.save.treeBits := by
    rw [hMade]
    exact hBits
  have hHdrIb : ex.req.hdrIb = s.save.hdrIb := by
    rw [hMade]
    rfl
  have hStart : ex.req.scratchStart = s.save.scratchStart := by
    unfold InflReq.scratchStart
    rw [hInHdrBits, hHdrIb]
    exact hReq.save.scratchTarget
  have hLen :
      ex.req.inScratchLen =
        s.save.scratchStart + s.save.scratchLen := by
    rw [hMade]
    exact hReq.save.bits
  refine ⟨hInHdrBits, hHdrIb, ?_, ?_, ?_, ?_, hStart, ?_,
    hLen⟩
  · rw [hMade]
    rfl
  · rw [hMade]
    rfl
  · rw [hMade]
    rfl
  · rw [hMade]
    rfl
  · unfold InflReq.scratchLen
    rw [hLen, hStart]
    exact Nat.add_sub_cancel_left _ _

theorem RequestParts.header
    (hParts : RequestParts s ex) :
    ex.req.header = s.save.header := by
  unfold InflReq.header SaveArea.header
  rw [hParts.tree, hParts.hdrIb, hParts.inHdrBits]

theorem RequestParts.data
    (hParts : RequestParts s ex) :
    ex.req.data = s.save.scratch ++ bitsOf s.nextIn := by
  unfold InflReq.data SaveArea.scratch
  rw [hParts.tree, hParts.scratchStart, hParts.scratchLen,
    hParts.scratchIb, hParts.inBuff]

theorem RequestParts.offered
    (hParts : RequestParts s ex)
    (pages : Bool → ByteMem) :
    ex.req.offered =
      (s.answered pages ex.resp).offered := by
  have hStream :
      (s.answered pages ex.resp).offered =
        s.save.header ++ s.save.scratch ++
          bitsOf s.nextIn := rfl
  unfold InflReq.offered
  rw [hStream, hParts.header, hParts.data, List.append_assoc]

theorem RequestParts.length_offered
    (hParts : RequestParts s ex)
    (hReq : Requesting s) :
    ex.req.offered.length =
      s.save.treeBits + s.save.scratchBits +
        8 * s.availIn := by
  unfold InflReq.offered
  rw [hParts.header, hParts.data, List.length_append,
    List.length_append, s.save.length_header,
    hReq.save.length_scratch, length_bitsOf, Nat.add_assoc]
  rfl

------------------------------------------------------------
-- Responses Noted in a Stream
------------------------------------------------------------

theorem processed_ne_zero_iff (resp : InflResp) :
    resp.processed ≠ 0 ↔
      resp.inpProcessed ≠ 0 ∨ resp.procBits ≠ 0 := by
  have hInp :
      resp.inpProcessed = 0 ↔
        resp.inpProcessed.toNat = 0 := by
    rw [← UInt32.toNat_inj]
    rfl
  have hBits :
      resp.procBits = 0 ↔ resp.procBits.toNat = 0 := by
    rw [← UInt8.toNat_inj]
    rfl
  unfold InflResp.processed
  rw [Ne, Ne, Ne, hInp, hBits]
  omega

theorem processed_answered
    (pages : Bool → ByteMem) (resp : InflResp)
    (s : InflStream) :
    (s.answered pages resp).processed = resp.processed := by
  show resp.inpProcessed.toNat * 8 + resp.procBits.toNat = _
  unfold InflResp.processed
  omega

/- The results noted, where something was processed. -/
structure Answered (t : InflStream) (ex : InflExchange) :
    Prop where
  inflStat : t.asv.inflStat = ex.resp.inflStat
  copyblockLen : t.asv.copyblockLen = ex.resp.copyblockLen
  outpReturned :
    t.asv.outpReturned = ex.resp.outpReturned.toNat
  processed : t.processed = ex.resp.processed
  hdrStart : t.hdrStartTotalBits = ex.resp.hdrStartTotal
  outHdrBits : t.asv.outHdrBits = ex.resp.outHdrBits.toNat
  inHdrBits : t.inHdrBits = ex.req.inHdrBits
  hdrIb : t.save.hdrIb = ex.req.hdrIb
  treeBits : t.save.treeBits = ex.req.inHdrBits
  header : t.save.header = ex.req.header
  scratchIb : t.save.scratchIb = ex.req.scratchIb
  scratchLen : t.save.scratchLen = ex.req.scratchLen
  availIn : t.availIn = ex.req.inBuff.length
  availOut : t.availOut = ex.req.outBuffLen
  offered : t.offered = ex.req.offered

theorem RequestParts.answered
    (hParts : RequestParts s ex)
    (hReq : Requesting s)
    (pages : Bool → ByteMem)
    (hSome : ex.resp.processed ≠ 0) :
    Answered (s.answered pages ex.resp) ex := by
  have hNoted := (processed_ne_zero_iff ex.resp).mp hSome
  have hBits : s.save.treeBits % 2 ^ 16 = s.save.treeBits :=
    Nat.mod_eq_of_lt hReq.save.treeBits
  refine ⟨rfl, rfl, rfl, processed_answered _ _ _, ?_, ?_, ?_,
    hParts.hdrIb.symm, hParts.inHdrBits.symm,
    hParts.header.symm, hParts.scratchIb.symm,
    hParts.scratchLen.symm, ?_, hParts.outBuffLen.symm,
    (hParts.offered pages).symm⟩
  · unfold InflStream.hdrStartTotalBits InflStream.answered
      getInflateAsv InflResp.hdrStartTotal
    simp only
    rw [if_pos hNoted, if_pos hNoted, Nat.mul_comm]
  · unfold InflStream.answered getInflateAsv
    simp only
    rw [if_pos hNoted]
  · rw [hParts.inHdrBits]
    exact hBits
  · rw [hParts.inBuff]
    rfl

end Bridge

section Noted

variable {t : InflStream} {ex : InflExchange}

theorem Answered.newHeader
    (hAns : Answered t ex) : t.newHeader = ex.newHeader := by
  unfold InflStream.newHeader InflExchange.newHeader
  rw [hAns.outHdrBits, hAns.hdrStart, hAns.inHdrBits]

theorem Answered.found
    (hAns : Answered t ex) : t.foundHeader = ex.found := by
  unfold InflStream.foundHeader setupTreeEob
    InflExchange.found InflExchange.onEob
  rw [← hAns.newHeader, ← hAns.inflStat]
  cases passedEob t.asv.inflStat with
  | false => simp
  | true =>
      cases reachedEob t.asv.inflStat with
      | false =>
          rw [if_pos rfl, if_neg (by decide)]
          simp only [Bool.and_false, Bool.not_false,
            Bool.and_true]
          rfl
      | true => simp [InflStream.newHeader]

theorem Answered.cut
    (hAns : Answered t ex) : t.cut = ex.cut := by
  unfold InflStream.cut InflStream.cutStored setupTreeEob
    InflExchange.cut InflExchange.onEob
  rw [← hAns.copyblockLen, ← hAns.inflStat,
    ← hAns.outHdrBits]
  cases hPassed : passedEob t.asv.inflStat with
  | false => simp
  | true =>
      cases hReached : reachedEob t.asv.inflStat with
      | false =>
          rw [if_pos rfl, if_neg (by decide)]
          simp only [Bool.and_false, Bool.not_false,
            Bool.and_true]
          rfl
      | true => simp

theorem Answered.stopHdrBits
    (hAns : Answered t ex) :
    t.stopHdrBits = ex.stopHdrBits := by
  unfold InflStream.stopHdrBits InflExchange.stopHdrBits
  rw [hAns.found, hAns.outHdrBits, hAns.inflStat,
    hAns.treeBits]

theorem Answered.hdrAt
    (hAns : Answered t ex) : t.hdrAt = ex.hdrAt := by
  unfold InflStream.hdrAt InflExchange.hdrAt
  rw [hAns.hdrStart, hAns.scratchIb, hAns.inHdrBits]

theorem Answered.hdrLen
    (hAns : Answered t ex) : t.hdrLen = ex.hdrLen := by
  unfold InflStream.hdrLen InflExchange.hdrLen
  rw [hAns.hdrAt, hAns.outHdrBits]

theorem Answered.stopAt
    (hAns : Answered t ex) : t.stopAt = ex.stopAt := by
  unfold InflStream.stopAt InflExchange.stopAt
  rw [hAns.processed, hAns.scratchIb, hAns.inHdrBits]

theorem Answered.keepLen
    (hAns : Answered t ex) :
    t.keepLen ex.req.scratchLen = ex.keepLen := by
  unfold InflStream.keepLen InflExchange.keepLen
  rw [hAns.availOut, hAns.outpReturned, hAns.availIn,
    hAns.stopAt]

/- The new header is moved as a whole. -/
structure HdrMoves (ex : InflExchange) : Prop where
  behind :
    ex.req.inHdrBits ≤
      ex.resp.hdrStartTotal + ex.req.scratchIb
  last :
    (ex.resp.hdrStartTotal = 0 ∧ ex.req.inHdrBits = 0) ∨
      ex.req.scratchLen ≤ ex.hdrAt / 8 + ex.hdrLen

theorem Answered.movable_iff
    (hAns : Answered t ex)
    (hFound : ex.found = true) :
    HdrMovable (setupTreeEob t) t.save.scratchLen ↔
      HdrMoves ex ∧ ex.hdrLen ≤ zedcTreeLen := by
  have hSame := setupTreeEob_same t
  have hIs : t.foundHeader = true := hAns.found.trans hFound
  have hAsv := ((setupTreeEob_strm t).2.2 hIs).2
  have hStart :
      (setupTreeEob t).hdrStartTotalBits =
        ex.resp.hdrStartTotal := by
    rw [← hAns.hdrStart]
    unfold InflStream.hdrStartTotalBits
    rw [hAsv]
  have hAt : (setupTreeEob t).hdrAt = ex.hdrAt := by
    rw [← hAns.hdrAt]
    unfold InflStream.hdrAt
    rw [hStart, ← hAns.hdrStart, hSame.scratchIb,
      hSame.inHdrBits]
  have hLen : (setupTreeEob t).hdrLen = ex.hdrLen := by
    rw [← hAns.hdrLen]
    unfold InflStream.hdrLen
    rw [hAt, hAns.hdrAt, hAsv]
  have hFirst :
      (setupTreeEob t).HdrFirst ↔
        ex.resp.hdrStartTotal = 0 ∧
          ex.req.inHdrBits = 0 := by
    unfold InflStream.HdrFirst
    rw [hStart, hSame.inHdrBits, hAns.inHdrBits]
  constructor
  · intro hMove
    have hBehind := hMove.behind
    rw [hStart, hSame.inHdrBits, hSame.scratchIb,
      hAns.inHdrBits, hAns.scratchIb] at hBehind
    have hLast := hMove.last
    rw [hFirst, hAt, hLen, hAns.scratchLen] at hLast
    have hRoom := hMove.room
    rw [hLen] at hRoom
    exact ⟨⟨hBehind, hLast⟩, hRoom⟩
  · rintro ⟨hMoves, hRoom⟩
    refine ⟨?_, ?_, ?_⟩
    · rw [hStart, hSame.inHdrBits, hSame.scratchIb,
        hAns.inHdrBits, hAns.scratchIb]
      exact hMoves.behind
    · rw [hFirst, hAt, hLen, hAns.scratchLen]
      exact hMoves.last
    · rw [hLen]
      exact hRoom

/- What is kept behind the header kept, and that header. -/
theorem Answered.ready
    (hAns : Answered t ex) :
    t.ready.keepLen t.save.scratchLen = ex.keepLen ∧
      t.ready.save.treeBits = ex.stopHdrBits ∧
      t.ready.save.hdrIb = ex.stopHdrIb := by
  have hSame := setupTreeEob_same t
  rcases setupTreeEob_strm t with ⟨hStrm, hAsv, hFoundAsv⟩
  have hKeepEob :
      (setupTreeEob t).keepLen t.save.scratchLen =
        ex.keepLen := by
    have hOut : (setupTreeEob t).availOut = t.availOut :=
      (congrArg InflStream.availOut hStrm :)
    have hReturned :
        (setupTreeEob t).asv.outpReturned =
          t.asv.outpReturned :=
      (congrArg Asv.outpReturned hAsv :)
    rw [← hAns.keepLen, ← hAns.scratchLen]
    unfold InflStream.keepLen InflStream.stopAt
      InflStream.availIn
    rw [hSame.processed, hSame.scratchIb, hSame.inHdrBits,
      hSame.nextIn, hOut, hReturned]
  unfold InflExchange.stopHdrBits InflExchange.stopHdrIb
  by_cases hFound : ex.found = true
  · have hIs : t.foundHeader = true :=
      hAns.found.trans hFound
    have hReady :
        t.ready =
          (setupTreeEob t).withTree t.save.scratchStart
            t.save.scratchLen := if_pos hIs
    have hAsv' := (hFoundAsv hIs).2
    rw [if_pos hFound, if_pos hFound, hReady]
    refine ⟨hKeepEob, ?_, ?_⟩
    · rw [← hAns.outHdrBits, ← hAsv']
      rfl
    · rw [← hAns.hdrAt]
      unfold InflStream.withTree InflStream.hdrAt
        InflStream.hdrStartTotalBits
      simp only
      rw [hAsv', hSame.scratchIb, hSame.inHdrBits]
  · have hIs : ¬ t.foundHeader = true := by
      rw [hAns.found]
      exact hFound
    have hReady : t.ready = setupTreeEob t := if_neg hIs
    rw [if_neg hFound, if_neg hFound, hReady, hStrm,
      ← hAns.inflStat, ← hAns.treeBits, ← hAns.hdrIb]
    refine ⟨?_, ?_⟩
    · rw [← hStrm]
      exact hKeepEob
    · cases passedEob t.asv.inflStat <;> exact ⟨rfl, rfl⟩

/- The scratch kept fits behind the header kept. -/
theorem Answered.hasRoom_iff
    (hAns : Answered t ex) :
    t.ready.HasRoom t.save.scratchLen ↔
      (ex.keepLen ≠ 0 →
        (ex.stopHdrBits + ex.stopHdrIb + 63) / 64 * 8 +
          ex.keepLen ≤ zedcTreeLen) := by
  rcases hAns.ready with ⟨hKeep, hBits, hIb⟩
  unfold InflStream.HasRoom SaveArea.scratchTarget
  rw [hKeep, hBits, hIb]
  omega

/- The results are honest as the save area sees them. -/
theorem HonestExchange.asvHonest
    {s : InflStream}
    (hHonest : HonestExchange ex)
    (hParts : RequestParts s ex)
    (hReq : Requesting s)
    (pages : Bool → ByteMem)
    (hSome : ex.resp.processed ≠ 0) :
    AsvHonest (s.answered pages ex.resp) := by
  have hAns := hParts.answered hReq pages hSome
  have hLen := hParts.length_offered hReq
  have hInside := hHonest.inside
  refine ⟨⟨?_, ?_⟩, ?_, ?_⟩
  · rw [hAns.inHdrBits, hAns.processed]
    exact hHonest.behind
  · rw [hAns.processed, hAns.inHdrBits, hParts.inHdrBits]
    rw [hLen] at hInside
    exact hInside
  · rw [hAns.outHdrBits]
    exact ex.resp.outHdrBits.toNat_lt
  · rw [hAns.newHeader, hAns.hdrStart, hAns.outHdrBits,
      hAns.processed]
    exact hHonest.newHdr

/- The stream as `setup_tree` finds it. -/
structure Noted (t : InflStream) (ex : InflExchange) :
    Prop where
  offered : Offered t
  asvHonest : AsvHonest t
  answered : Answered t ex

/- How much input was used up is noted besides. -/
theorem HonestExchange.noted
    {s : InflStream}
    (hHonest : HonestExchange ex)
    (hParts : RequestParts s ex)
    (hReq : Requesting s)
    (pages : Bool → ByteMem)
    (hSome : ex.resp.processed ≠ 0)
    (n : Nat) :
    Noted
      { s.answered pages ex.resp with inDataUsed := n }
      ex := by
  have hOff := hReq.offered pages ex.resp
  have hAsv := hHonest.asvHonest hParts hReq pages hSome
  have hAns := hParts.answered hReq pages hSome
  refine ⟨?_, ?_, ?_⟩
  · exact ⟨hOff.save, hOff.len, hOff.inHdrBits,
      hOff.preScratchBits, hOff.availIn, hOff.inpDataOffs⟩
  · exact ⟨⟨hAsv.proc.hdr, hAsv.proc.fits⟩,
      hAsv.outHdrBits, hAsv.hdr⟩
  · exact ⟨hAns.inflStat, hAns.copyblockLen,
      hAns.outpReturned, hAns.processed, hAns.hdrStart,
      hAns.outHdrBits, hAns.inHdrBits, hAns.hdrIb,
      hAns.treeBits, hAns.header, hAns.scratchIb,
      hAns.scratchLen, hAns.availIn, hAns.availOut,
      hAns.offered⟩

end Noted

end Zedc
