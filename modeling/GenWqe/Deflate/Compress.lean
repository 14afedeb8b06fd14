import GenWqe.Deflate.Output

/-
  `zedc_deflate` itself: what is done before a request, how
  the request is built and executed, how its results are
  taken over, and how a flush or the end is written.

  Key definitions include:
    * `deflatePrepare`, `deflateRequest`, `deflateExecute`
    * `deflateProcessResults`, `deflateWindUp`
    * `zedcDeflate`

  Main results:
    * `deflateStoreObits_spec`
    * `deflateExecute_spec`
    * `deflateProcessResults_spec`
    * `deflateSubmit_outcome`
    * `prefix_zedcDeflate`
-/

------------------------------------------------------------
-- Before the Request
------------------------------------------------------------

namespace Zedc

open Bits BlockBits

/- End of block, trailer, and the FIFO drained once more. -/
def deflateFinish (s : DeflStream) : DeflStream :=
  deflateWriteOutFifo
    (deflateAddTrailer (deflateWriteEob s))

/- Everything of the stream has been written out. -/
def deflateDone (s : DeflStream) : Bool :=
  s.eobAdded && s.trailerAdded && s.outFifo.fifoEmpty

/-
  The exits of `zedc_deflate` in front of the request: all is
  written out, no output space, nothing to process.
-/
def deflateExits (s : DeflStream) :
    Sum (Rc × DeflStream) DeflStream :=
  if deflateDone s then .inl (.streamEnd, s)
  else if s.availOut = 0 then .inl (.ok, s)
  else if s.nextIn = [] then .inl (.ok, s)
  else .inr s

/- From the drained FIFO on: write the end if asked to. -/
def deflatePrepareDrained
    (flush : Flush) (s : DeflStream) :
    Sum (Rc × DeflStream) DeflStream :=
  if s.availOut = 0 then .inl (.ok, s)
  else
    deflateExits
      (if flush = .finish ∧ s.nextIn = [] then
        deflateFinish s
      else s)

/-
  `zedc_deflate` up to the point where the DDCB is prepared.
  On the left it has returned already, on the right a request
  is to be made.
-/
def deflatePrepare
    (flush : Flush)
    (now : UInt32)
    (s : DeflStream) : Sum (Rc × DeflStream) DeflStream :=
  match
    if s.headerAdded then (false, s)
    else deflateAddHeader now s with
  | (true, s) => .inl (.streamError, s)
  | (false, s) =>
      deflatePrepareDrained flush (deflateWriteOutFifo s)

------------------------------------------------------------
-- The Request
------------------------------------------------------------

/- The last dictionary may be left out of the transfer. -/
def deflateSkipLastDict
    (flush : Flush) (s : DeflStream) : Bool :=
  s.flgSkipLastDict &&
    (flush == .finish || flush == .fullFlush) &&
    decide (s.availOut ≥ s.availIn)

/- The ASIV as it is filled in before the page toggles. -/
def deflateRequest
    (flush : Flush) (s : DeflStream) : DeflReq where
  saveDict := !deflateSkipLastDict flush s
  rasCheck := s.flgCrossCheck
  ibufIndir := s.dynHuffmanSupported && !s.strategyFixed
  inBuff := s.nextIn
  outBuffLen := s.availOut
  inDict := fun i =>
    s.dict s.wspPage (s.outDictOffs.toNat + i)
  inDictLen := s.dictLen
  outDictLen :=
    if deflateSkipLastDict flush s then 0 else zedcDictLen
  ibits := s.obyte
  inumbits := s.onumbits
  inCrc32 := s.crc32
  inAdler32 := s.adler32

/- `zedc_deflate` treats the DDCB as failed or unexecuted. -/
def DeflResp.failed (resp : DeflResp) : Bool :=
  decide (resp.rc < 0) || resp.retc == 0x000

/- All data absorbed and all data fitted into the output. -/
def DeflResp.absorbed
    (resp : DeflResp) (s : DeflStream) : Bool :=
  s.availIn == resp.inpProcessed.toNat &&
    decide (s.availOut ≥ resp.outpReturned.toNat)

/-
  The dictionary the card writes, into the page that is now
  the current one, if it was asked to save it.
-/
def deflateSaveDict
    (req : DeflReq) (resp : DeflResp)
    (s : DeflStream) : DeflStream :=
  if req.saveDict then
    { s with
      dict := fun p =>
        if p = s.wspPage then resp.outDict else s.dict p }
  else s

/-
  The page toggle and the execution, which is repeated with
  the dictionary saved when leaving it out did not work. No
  exchange comes back when an execution failed.
-/
def deflateExecute
    (flush : Flush)
    (env : DeflateEnv)
    (s : DeflStream) : Option DeflExchange × DeflStream :=
  let req := deflateRequest flush s
  let skip := deflateSkipLastDict flush s
  let s := { s with wspPage := !s.wspPage }
  let resp := env.accel 0 req
  let s := deflateSaveDict req resp s
  if resp.failed then (none, s)
  else if resp.absorbed s || !skip then
    (some ⟨req, resp⟩, s)
  else
    let req :=
      { req with saveDict := true, outDictLen := zedcDictLen }
    let resp := env.accel 1 req
    let s := deflateSaveDict req resp s
    if resp.failed then (none, s)
    else (some ⟨req, resp⟩, s)

------------------------------------------------------------
-- The Results
------------------------------------------------------------

/- `ZEDC_ONUMBYTES_v0`, `_v1` and `_EXTRA` -/
def zedcOnumbytesV0 : Nat := 23
def zedcOnumbytesV1 : Nat := 24
def zedcOnumbytesExtra : Nat := 7

/- More left-over bits than the response has room for. -/
def obitsInvalid (dynHuffman : Bool) (onumbits : Nat) :
    Bool :=
  if dynHuffman then
    decide
      (onumbits > (zedcOnumbytesV1 + zedcOnumbytesExtra) * 8)
  else decide (onumbits > zedcOnumbytesV0 * 8)

/-
  The loop that pushes whole bytes of left-over bits: `fuel`
  bytes remain in the field, `i` is the next of them.
-/
def pushObitsLoop (obits : ByteMem) :
    Nat → Nat → Nat → ZedcFifo → Nat × Nat × ZedcFifo
  | 0, i, onumbits, f => (i, onumbits, f)
  | fuel + 1, i, onumbits, f =>
      if onumbits > 7 then
        pushObitsLoop obits fuel (i + 1) (onumbits - 8)
          (f.fifoPush (obits i))
      else (i, onumbits, f)

/-
  The left-over bits of a response: whole bytes go into the
  FIFO, what is left of them and the incomplete byte come
  back. The newer layout has a second field, which lies behind
  `out_dict_offs`.
-/
def deflateTakeObits
    (dynHuffman : Bool)
    (resp : DeflResp)
    (f : ZedcFifo)
    (obyte : UInt8) : ZedcFifo × Nat × UInt8 :=
  if dynHuffman then
    let (i, onumbits, f) :=
      pushObitsLoop resp.obits zedcOnumbytesV1 0
        resp.onumbits.toNat f
    if onumbits ≠ 0 ∧ i < zedcOnumbytesV1 then
      (f, onumbits, resp.obits i)
    else
      let (i, onumbits, f) :=
        pushObitsLoop resp.obitsExtra zedcOnumbytesExtra 0
          onumbits f
      if onumbits ≠ 0 ∧ i < zedcOnumbytesExtra then
        (f, onumbits, resp.obitsExtra i)
      else (f, onumbits, obyte)
  else
    let (i, onumbits, f) :=
      pushObitsLoop resp.obits zedcOnumbytesV0 0
        resp.onumbits.toNat f
    if onumbits ≠ 0 then (f, onumbits, resp.obits i)
    else (f, onumbits, obyte)

/- The left-over bits taken over into the stream. -/
def deflateStoreObits
    (resp : DeflResp) (s : DeflStream) : DeflStream :=
  let (f, onumbits, obyte) :=
    deflateTakeObits s.dynHuffmanSupported resp s.outFifo
      s.obyte
  { s with
    outFifo := f
    onumbits := onumbits
    obyte := obyte }

/- `deflate_process_results` -/
def deflateProcessResults
    (resp : DeflResp) (s : DeflStream) : Rc × DeflStream :=
  let len := resp.inpProcessed.toNat
  if len > s.availIn then (.errRetlen, s)
  else
    let s :=
      { s with
        nextIn := s.nextIn.drop len
        totalIn := s.totalIn + len }
    let len := resp.outpReturned.toNat
    if len = 0 ∨ len > s.availOut then (.errRetlen, s)
    else if
        obitsInvalid s.dynHuffmanSupported
          resp.onumbits.toNat then
      (.errRetobits, s)
    else
      let s :=
        { s with
          nextOut := s.nextOut ++ resp.outBuff.window 0 len
          availOut := s.availOut - len
          totalOut := s.totalOut + len }
      if s.availOut ≠ 0 ∧ resp.onumbits.toNat > 7 then
        (.errRetobits, s)
      else (.ok, deflateStoreObits resp s)

------------------------------------------------------------
-- The Call
------------------------------------------------------------

/- The ASV fields the stream takes over unchecked. -/
def deflateTakeAsv
    (resp : DeflResp) (s : DeflStream) : DeflStream :=
  { s with
    crc32 := resp.outCrc32
    adler32 := resp.outAdler32
    dictLen := resp.outDictUsed
    outDictOffs := resp.outDictOffs }

/- What a flush value asks for behind an accepted request. -/
def deflateFlush (flush : Flush) (s : DeflStream) :
    DeflStream :=
  match flush with
  | .finish => if s.nextIn = [] then deflateFinish s else s
  | .syncFlush | .partialFlush =>
      deflateWriteOutFifo (deflateSyncFlush s)
  | .fullFlush =>
      { deflateWriteOutFifo (deflateSyncFlush s) with
        dictLen := 0 }
  | .noFlush | .block | .other _ => s

/- The end of `zedc_deflate` behind an accepted request. -/
def deflateWindUp
    (flush : Flush)
    (ex : DeflExchange)
    (s : DeflStream) : DeflRet :=
  let s := deflateFlush flush s
  ⟨if deflateDone s then .streamEnd else .ok, s, some ex⟩

/- `zedc_deflate` from the point where the DDCB is prepared. -/
def deflateSubmit
    (flush : Flush)
    (env : DeflateEnv)
    (s : DeflStream) : DeflRet :=
  match deflateExecute flush env s with
  | (none, s) => ⟨.streamError, s, none⟩
  | (some ex, s) =>
      let s := deflateTakeAsv ex.resp s
      if s.outDictOffs ≥ 16 then ⟨.streamError, s, none⟩
      else
        let (rc, s) := deflateProcessResults ex.resp s
        if rc.IsNegative then ⟨.streamError, s, none⟩
        else deflateWindUp flush ex s

/- `zedc_deflate` -/
def zedcDeflate
    (flush : Flush)
    (env : DeflateEnv)
    (s : DeflStream) : DeflRet :=
  match deflatePrepare flush env.now s with
  | .inl (rc, s) => ⟨rc, s, none⟩
  | .inr s => deflateSubmit flush env s

------------------------------------------------------------
-- What the Results Add
------------------------------------------------------------

/- The left-over bytes a response has room for. -/
def DeflResp.leftOver
    (resp : DeflResp) (dynHuffman : Bool) : List UInt8 :=
  if dynHuffman then
    resp.obits.window 0 zedcOnumbytesV1 ++
      resp.obitsExtra.window 0 zedcOnumbytesExtra
  else resp.obits.window 0 zedcOnumbytesV0

/- All bits of a response, stored ones and left-over ones. -/
def DeflResp.outBits
    (resp : DeflResp) (dynHuffman : Bool) : List Bool :=
  bitsOf (resp.outBuff.window 0 resp.outpReturned.toNat) ++
    (bitsOf (resp.leftOver dynHuffman)).take
      resp.onumbits.toNat

/- The loop pushes as many whole bytes as there are. -/
theorem pushObitsLoop_eq
    (obits : ByteMem)
    (fuel i onumbits : Nat)
    (f : ZedcFifo) :
    pushObitsLoop obits fuel i onumbits f =
      (i + min fuel (onumbits / 8),
        onumbits - 8 * min fuel (onumbits / 8),
        f.fifoPushAll
          (obits.window i (min fuel (onumbits / 8)))) := by
  induction fuel generalizing i onumbits f with
  | zero => simp [pushObitsLoop, ZedcFifo.fifoPushAll]
  | succ fuel ih =>
      unfold pushObitsLoop
      by_cases hByte : onumbits > 7
      · have hMin :
            min (fuel + 1) (onumbits / 8) =
              min fuel ((onumbits - 8) / 8) + 1 := by
          omega
        rw [if_pos hByte, ih, hMin, ByteMem.window_succ]
        refine Prod.ext (by simp; omega) ?_
        refine Prod.ext (by simp; omega) ?_
        simp [ZedcFifo.fifoPushAll]
      · have hZero : min (fuel + 1) (onumbits / 8) = 0 := by
          omega
        rw [if_neg hByte, hZero]
        simp [ZedcFifo.fifoPushAll]

theorem length_leftOver
    (resp : DeflResp)
    (dynHuffman : Bool)
    (hValid :
      obitsInvalid dynHuffman resp.onumbits.toNat = false) :
    resp.onumbits.toNat ≤
      8 * (resp.leftOver dynHuffman).length := by
  cases dynHuffman <;>
    simp [obitsInvalid, DeflResp.leftOver, zedcOnumbytesV0,
      zedcOnumbytesV1, zedcOnumbytesExtra] at hValid ⊢ <;>
    omega

/-
  Whole left-over bytes go into the FIFO, fewer than eight
  bits remain, and the partial byte is the one behind the
  pushed ones.
-/
theorem deflateTakeObits_spec
    (dynHuffman : Bool)
    (resp : DeflResp)
    (f : ZedcFifo)
    (obyte : UInt8)
    (n : Nat)
    (hN : resp.onumbits.toNat = n)
    (hValid : obitsInvalid dynHuffman n = false)
    (hEmpty : f.contents = []) :
    ∃ f' obyte',
      deflateTakeObits dynHuffman resp f obyte =
        (f', n % 8, obyte') ∧
      f'.contents =
        (resp.leftOver dynHuffman).take (n / 8) ∧
      (n % 8 ≠ 0 →
        obyte' =
          (resp.leftOver dynHuffman).getD (n / 8) 0) := by
  have hPush :
      ∀ (f : ZedcFifo) (bs : List UInt8),
        f.contents.length + bs.length ≤ 255 →
          (f.fifoPushAll bs).contents = f.contents ++ bs :=
    fun f bs hLen => ZedcFifo.contents_fifoPushAll f bs hLen
  have hGet :
      ∀ (m : ByteMem) (k i : Nat), i < k →
        (m.window 0 k).getD i 0 = m i := by
    intro m k i hi
    rw [List.getD_eq_getElem?_getD, ByteMem.window_getElem?,
      if_pos hi, Nat.zero_add]
    rfl
  unfold deflateTakeObits
  simp only [pushObitsLoop_eq, hN, Nat.zero_add]
  cases dynHuffman with
  | false =>
      have hBound : n ≤ 184 := by
        simpa [obitsInvalid, zedcOnumbytesV0] using hValid
      simp only [DeflResp.leftOver, zedcOnumbytesV0,
        Bool.false_eq_true, if_false]
      have hMin : min 23 (n / 8) = n / 8 := by omega
      have hRest : n - 8 * (n / 8) = n % 8 := by omega
      have hContents :
          (f.fifoPushAll
            (resp.obits.window 0 (n / 8))).contents =
            (resp.obits.window 0 23).take (n / 8) := by
        rw [hPush _ _ (by simp [hEmpty]; omega), hEmpty,
          ByteMem.take_window, Nat.min_comm, hMin]
        rfl
      simp only [hMin, hRest]
      by_cases hPart : n % 8 ≠ 0
      · rw [if_pos hPart]
        refine ⟨_, _, rfl, hContents, ?_⟩
        intro _
        exact (hGet _ _ _ (by omega)).symm
      · rw [if_neg hPart]
        exact ⟨_, _, rfl, hContents, fun h => absurd h hPart⟩
  | true =>
      have hBound : n ≤ 248 := by
        simpa [obitsInvalid, zedcOnumbytesV1,
          zedcOnumbytesExtra] using hValid
      simp only [DeflResp.leftOver, zedcOnumbytesV1,
        zedcOnumbytesExtra, if_true]
      by_cases hShort : n / 8 < 24
      · have hMin : min 24 (n / 8) = n / 8 := by omega
        have hRest : n - 8 * (n / 8) = n % 8 := by omega
        have hNone : min 7 (n % 8 / 8) = 0 := by omega
        have hContents :
            (f.fifoPushAll
              (resp.obits.window 0 (n / 8))).contents =
              (resp.obits.window 0 24 ++
                resp.obitsExtra.window 0 7).take
                  (n / 8) := by
          rw [hPush _ _ (by simp [hEmpty]; omega), hEmpty,
            List.take_append_of_le_length (by simp; omega),
            ByteMem.take_window, Nat.min_comm, hMin]
          rfl
        simp only [hMin, hRest, hNone]
        by_cases hPart : n % 8 ≠ 0
        · rw [if_pos ⟨hPart, hShort⟩]
          refine ⟨_, _, rfl, hContents, ?_⟩
          intro _
          rw [List.getD_eq_getElem?_getD,
            List.getElem?_append_left (by simpa using hShort),
            ← List.getD_eq_getElem?_getD]
          exact (hGet _ _ _ hShort).symm
        · have hZero : n % 8 = 0 := by omega
          rw [if_neg (fun h => hPart h.1),
            if_neg (fun h => h.1 (by omega))]
          refine ⟨_, obyte, ?_, hContents,
            fun h => absurd hZero h⟩
          simp [hZero, ZedcFifo.fifoPushAll]
      · have hMin : min 24 (n / 8) = 24 := by omega
        have hMore :
            min 7 ((n - 8 * 24) / 8) = n / 8 - 24 := by
          omega
        have hRest :
            n - 8 * 24 - 8 * (n / 8 - 24) = n % 8 := by
          omega
        have hFirst := hPush f (resp.obits.window 0 24)
          (by simp [hEmpty])
        have hContents :
            ((f.fifoPushAll
              (resp.obits.window 0 24)).fifoPushAll
                (resp.obitsExtra.window 0
                  (n / 8 - 24))).contents =
              (resp.obits.window 0 24 ++
                resp.obitsExtra.window 0 7).take
                  (n / 8) := by
          rw [hPush _ _ (by rw [hFirst]; simp [hEmpty]; omega),
            hFirst, hEmpty, List.take_append,
            ByteMem.length_window, ByteMem.take_window,
            ByteMem.take_window,
            show min (n / 8) 24 = 24 by omega,
            show min (n / 8 - 24) 7 = n / 8 - 24 by omega]
          rfl
        simp only [hMin, hMore, hRest]
        rw [if_neg (by omega)]
        by_cases hPart : n % 8 ≠ 0
        · have hLt : n / 8 - 24 < 7 := by omega
          rw [if_pos ⟨hPart, hLt⟩]
          refine ⟨_, _, rfl, hContents, ?_⟩
          intro _
          rw [List.getD_eq_getElem?_getD,
            List.getElem?_append_right (by simp; omega),
            ← List.getD_eq_getElem?_getD,
            ByteMem.length_window]
          exact (hGet _ _ _ hLt).symm
        · rw [if_neg (fun h => hPart h.1)]
          exact ⟨_, _, rfl, hContents,
            fun h => absurd h hPart⟩

/-
  The left-over bits end up in the FIFO and in the partial
  byte, in both layouts.
-/
theorem deflateStoreObits_spec
    (resp : DeflResp)
    (s : DeflStream)
    (hValid :
      obitsInvalid s.dynHuffmanSupported
        resp.onumbits.toNat = false)
    (hEmpty : s.outFifo.contents = []) :
    ∃ f obyte,
      deflateStoreObits resp s =
        { s with
          outFifo := f
          onumbits := resp.onumbits.toNat % 8
          obyte := obyte } ∧
      f.contents.length ≤ 31 ∧
      bitsOf f.contents ++
          (byteBits obyte).take (resp.onumbits.toNat % 8) =
        (bitsOf (resp.leftOver s.dynHuffmanSupported)).take
          resp.onumbits.toNat := by
  rcases deflateTakeObits_spec s.dynHuffmanSupported resp
      s.outFifo s.obyte _ rfl hValid hEmpty with
    ⟨f, obyte, hTake, hContents, hByte⟩
  refine ⟨f, obyte, ?_, ?_, ?_⟩
  · simp only [deflateStoreObits, hTake]
  · rw [hContents]
    refine Nat.le_trans (List.length_take_le' _ _) ?_
    unfold DeflResp.leftOver
    split <;> simp [zedcOnumbytesV0, zedcOnumbytesV1,
      zedcOnumbytesExtra]
  · rw [take_bitsOf (length_leftOver resp _ hValid),
      hContents]
    congr 1
    by_cases hPart : resp.onumbits.toNat % 8 ≠ 0
    · rw [hByte hPart]
    · rw [not_not.mp hPart]
      rfl

------------------------------------------------------------
-- What the Execution Leaves
------------------------------------------------------------

/-
  Executing a request toggles the page and may overwrite the
  new one. An exchange that comes back was built from the
  stream and did not fail.
-/
theorem deflateExecute_spec
    {flush : Flush}
    {env : DeflateEnv}
    {s s' : DeflStream}
    {found : Option DeflExchange}
    (hExec : deflateExecute flush env s = (found, s')) :
    (∃ dict,
      s' = { s with wspPage := !s.wspPage, dict := dict }) ∧
    ∀ ex, found = some ex →
      ex.resp.failed = false ∧
      ∃ saveDict outDictLen,
        ex.req =
          { deflateRequest flush s with
            saveDict := saveDict
            outDictLen := outDictLen } := by
  have hSave :
      ∀ (req : DeflReq) (resp : DeflResp)
        (dict : Bool → ByteMem),
        ∃ dict',
          deflateSaveDict req resp
              { s with
                wspPage := !s.wspPage
                dict := dict } =
            { s with
              wspPage := !s.wspPage
              dict := dict' } := by
    intro req resp dict
    unfold deflateSaveDict
    split
    · exact ⟨_, rfl⟩
    · exact ⟨_, rfl⟩
  unfold deflateExecute at hExec
  simp only at hExec
  rcases hSave (deflateRequest flush s)
      (env.accel 0 (deflateRequest flush s)) s.dict with
    ⟨dict₁, hFirst⟩
  change deflateSaveDict _ _
    { s with wspPage := !s.wspPage } = _ at hFirst
  rw [hFirst] at hExec
  split at hExec
  · cases hExec
    exact ⟨⟨dict₁, rfl⟩, fun ex hEx => by cases hEx⟩
  · rename_i hAlive
    split at hExec
    · cases hExec
      refine ⟨⟨dict₁, rfl⟩, ?_⟩
      intro ex hEx
      cases hEx
      exact ⟨by simpa using hAlive, _, _, rfl⟩
    · generalize hReq :
        ({ deflateRequest flush s with
            saveDict := true
            outDictLen := zedcDictLen } : DeflReq) = req
          at hExec
      rcases hSave req (env.accel 1 req) dict₁ with
        ⟨dict₂, hSecond⟩
      rw [hSecond] at hExec
      split at hExec
      · cases hExec
        exact ⟨⟨dict₂, rfl⟩, fun ex hEx => by cases hEx⟩
      · rename_i hAlive'
        cases hExec
        refine ⟨⟨dict₂, rfl⟩, ?_⟩
        intro ex hEx
        cases hEx
        exact ⟨by simpa using hAlive', _, _, hReq.symm⟩

/-
  Accepted results: the input they name is taken off, their
  output is counted, and the left-over bits are stored.
-/
theorem deflateProcessResults_spec
    {resp : DeflResp}
    {s s' : DeflStream}
    (hEmpty : s.outFifo.contents = [])
    (hOk : deflateProcessResults resp s = (.ok, s')) :
    ∃ f obyte,
      s' =
        { s with
          nextIn := s.nextIn.drop resp.inpProcessed.toNat
          totalIn := s.totalIn + resp.inpProcessed.toNat
          nextOut :=
            s.nextOut ++
              resp.outBuff.window 0 resp.outpReturned.toNat
          availOut := s.availOut - resp.outpReturned.toNat
          totalOut := s.totalOut + resp.outpReturned.toNat
          outFifo := f
          onumbits := resp.onumbits.toNat % 8
          obyte := obyte } ∧
      f.contents.length ≤ 31 ∧
      bitsOf f.contents ++
          (byteBits obyte).take (resp.onumbits.toNat % 8) =
        (bitsOf (resp.leftOver s.dynHuffmanSupported)).take
          resp.onumbits.toNat := by
  unfold deflateProcessResults at hOk
  simp only at hOk
  split at hOk
  · simp at hOk
  · split at hOk
    · simp at hOk
    · split at hOk
      · simp at hOk
      · rename_i hValid
        split at hOk
        · simp at hOk
        · simp only [Prod.mk.injEq, true_and] at hOk
          have hStore := deflateStoreObits_spec resp
            { s with
              nextIn := s.nextIn.drop resp.inpProcessed.toNat
              totalIn := s.totalIn + resp.inpProcessed.toNat
              nextOut :=
                s.nextOut ++
                  resp.outBuff.window 0
                    resp.outpReturned.toNat
              availOut :=
                s.availOut - resp.outpReturned.toNat
              totalOut :=
                s.totalOut + resp.outpReturned.toNat }
            (by simpa using hValid) hEmpty
          rcases hStore with ⟨f, obyte, hEq, hLen, hBits⟩
          rw [hEq] at hOk
          exact ⟨f, obyte, hOk.symm, hLen, hBits⟩

/- The results are accepted with `ZEDC_OK` or refused. -/
theorem deflateProcessResults_rc
    (resp : DeflResp) (s : DeflStream) :
    (deflateProcessResults resp s).1.IsNegative ∨
      (deflateProcessResults resp s).1 = .ok := by
  unfold deflateProcessResults
  simp only
  split_ifs
  · exact Or.inl (show Rc.IsNegative .errRetlen by decide)
  · exact Or.inl (show Rc.IsNegative .errRetlen by decide)
  · exact Or.inl (show Rc.IsNegative .errRetobits by decide)
  · exact Or.inl (show Rc.IsNegative .errRetobits by decide)
  · exact Or.inr rfl

/-
  What a submission can come to: the execution failed, its
  dictionary offset or its results were refused, or it was
  accepted and wound up.
-/
inductive SubmitOutcome
    (flush : Flush) (env : DeflateEnv) (s : DeflStream) :
    DeflRet → Prop
  | failed
      {s₁ : DeflStream} :
      deflateExecute flush env s = (none, s₁) →
      SubmitOutcome flush env s ⟨.streamError, s₁, none⟩
  | badOffset
      {ex : DeflExchange} {s₁ : DeflStream} :
      deflateExecute flush env s = (some ex, s₁) →
      ex.resp.outDictOffs ≥ 16 →
      SubmitOutcome flush env s
        ⟨.streamError, deflateTakeAsv ex.resp s₁, none⟩
  | refused
      {ex : DeflExchange} {s₁ s₂ : DeflStream} {rc : Rc} :
      deflateExecute flush env s = (some ex, s₁) →
      ¬ ex.resp.outDictOffs ≥ 16 →
      deflateProcessResults ex.resp
          (deflateTakeAsv ex.resp s₁) = (rc, s₂) →
      rc.IsNegative →
      SubmitOutcome flush env s ⟨.streamError, s₂, none⟩
  | accepted
      {ex : DeflExchange} {s₁ s₂ : DeflStream} :
      deflateExecute flush env s = (some ex, s₁) →
      ¬ ex.resp.outDictOffs ≥ 16 →
      deflateProcessResults ex.resp
          (deflateTakeAsv ex.resp s₁) = (.ok, s₂) →
      SubmitOutcome flush env s (deflateWindUp flush ex s₂)

theorem deflateSubmit_outcome
    (flush : Flush)
    (env : DeflateEnv)
    (s : DeflStream) :
    SubmitOutcome flush env s
      (deflateSubmit flush env s) := by
  unfold deflateSubmit
  generalize hExec : deflateExecute flush env s = found
  rcases found with ⟨_ | ex, s₁⟩
  · exact .failed hExec
  · simp only
    split
    · rename_i hOffs
      exact .badOffset hExec hOffs
    · rename_i hOffs
      have hRc := deflateProcessResults_rc ex.resp
        (deflateTakeAsv ex.resp s₁)
      generalize hResults :
        deflateProcessResults ex.resp
          (deflateTakeAsv ex.resp s₁) = result at *
      rcases result with ⟨rc, s₂⟩
      simp only at hRc ⊢
      split
      · rename_i hNeg
        exact .refused hExec hOffs hResults hNeg
      · rename_i hPos
        have hOk : rc = .ok := hRc.resolve_left hPos
        subst hOk
        exact .accepted hExec hOffs hResults

theorem deflateWindUp_rc
    (flush : Flush) (ex : DeflExchange) (s : DeflStream) :
    ¬ (deflateWindUp flush ex s).rc.IsNegative := by
  unfold deflateWindUp
  simp only
  split <;> decide

/- Without an error the submission was accepted. -/
theorem deflateSubmit_accepted
    {flush : Flush}
    {env : DeflateEnv}
    {s : DeflStream}
    (hOk : ¬ (deflateSubmit flush env s).rc.IsNegative) :
    ∃ ex s₁ s₂,
      deflateExecute flush env s = (some ex, s₁) ∧
      deflateProcessResults ex.resp
        (deflateTakeAsv ex.resp s₁) = (.ok, s₂) ∧
      deflateSubmit flush env s =
        deflateWindUp flush ex s₂ := by
  have hOutcome := deflateSubmit_outcome flush env s
  generalize deflateSubmit flush env s = ret at *
  have hNeg : Rc.IsNegative .streamError := by decide
  cases hOutcome with
  | failed _ => exact absurd hNeg hOk
  | badOffset _ _ => exact absurd hNeg hOk
  | refused _ _ _ _ => exact absurd hNeg hOk
  | accepted hExec _ hResults =>
      exact ⟨_, _, _, hExec, hResults, rfl⟩

------------------------------------------------------------
-- Output Only Grows
------------------------------------------------------------

theorem prefix_deflateWriteOutFifo (s : DeflStream) :
    s.nextOut <+: (deflateWriteOutFifo s).nextOut := by
  rcases (deflateWriteOutFifo_spec s).eq with
    ⟨out, f, _, _, hEq⟩
  rw [hEq]
  exact List.prefix_append _ _

theorem nextOut_deflateWriteEob (s : DeflStream) :
    (deflateWriteEob s).nextOut = s.nextOut := by
  unfold deflateWriteEob
  split_ifs <;> rfl

theorem nextOut_deflateAddTrailer (s : DeflStream) :
    (deflateAddTrailer s).nextOut = s.nextOut := by
  unfold deflateAddTrailer
  split_ifs <;> rfl

theorem prefix_deflateFinish (s : DeflStream) :
    s.nextOut <+: (deflateFinish s).nextOut := by
  have hDrain := prefix_deflateWriteOutFifo
    (deflateAddTrailer (deflateWriteEob s))
  rwa [nextOut_deflateAddTrailer,
    nextOut_deflateWriteEob] at hDrain

theorem nextOut_deflateAddHeader
    (now : UInt32) (s : DeflStream) :
    (deflateAddHeader now s).2.nextOut = s.nextOut := by
  unfold deflateAddHeader
  split
  · rfl
  · split
    · rfl
    · split <;> rfl
  · rfl

theorem prefix_deflateFlush
    (flush : Flush) (s : DeflStream) :
    s.nextOut <+: (deflateFlush flush s).nextOut := by
  have hSync :
      (deflateSyncFlush s).nextOut = s.nextOut := by
    simp only [deflateSyncFlush]
  have hMarker :=
    prefix_deflateWriteOutFifo (deflateSyncFlush s)
  rw [hSync] at hMarker
  cases flush with
  | finish =>
      simp only [deflateFlush]
      split
      · exact prefix_deflateFinish s
      · exact List.prefix_refl _
  | syncFlush => exact hMarker
  | partialFlush => exact hMarker
  | fullFlush => exact hMarker
  | noFlush => exact List.prefix_refl _
  | block => exact List.prefix_refl _
  | other value => exact List.prefix_refl _

theorem prefix_deflateExits (s : DeflStream) :
    s.nextOut <+:
      ((deflateExits s).elim (fun e => e.2) id).nextOut := by
  unfold deflateExits
  split_ifs <;> exact List.prefix_refl _

theorem prefix_deflatePrepareDrained
    (flush : Flush) (s : DeflStream) :
    s.nextOut <+:
      ((deflatePrepareDrained flush s).elim
        (fun e => e.2) id).nextOut := by
  unfold deflatePrepareDrained
  split
  · exact List.prefix_refl _
  · split
    · exact (prefix_deflateFinish s).trans
        (prefix_deflateExits _)
    · exact prefix_deflateExits s

theorem prefix_deflatePrepare
    (flush : Flush) (now : UInt32) (s : DeflStream) :
    s.nextOut <+:
      ((deflatePrepare flush now s).elim
        (fun e => e.2) id).nextOut := by
  unfold deflatePrepare
  have hHeader :
      (if s.headerAdded then (false, s)
        else deflateAddHeader now s).2.nextOut =
          s.nextOut := by
    split
    · rfl
    · exact nextOut_deflateAddHeader now s
  generalize
    (if s.headerAdded then (false, s)
      else deflateAddHeader now s) = added at *
  rcases added with ⟨_ | _, s₁⟩
  · simp only at hHeader
    rw [← hHeader]
    exact (prefix_deflateWriteOutFifo s₁).trans
      (prefix_deflatePrepareDrained flush _)
  · rw [← hHeader]
    exact List.prefix_refl _

theorem prefix_deflateProcessResults
    (resp : DeflResp) (s : DeflStream) :
    s.nextOut <+:
      (deflateProcessResults resp s).2.nextOut := by
  unfold deflateProcessResults
  simp only
  split_ifs
  · exact List.prefix_refl _
  · exact List.prefix_refl _
  · exact List.prefix_refl _
  · exact List.prefix_append _ _
  · exact List.prefix_append _ _

theorem prefix_deflateSubmit
    (flush : Flush) (env : DeflateEnv) (s : DeflStream) :
    s.nextOut <+:
      (deflateSubmit flush env s).strm.nextOut := by
  have hExecute :
      ∀ {found : Option DeflExchange} {s₁ : DeflStream},
        deflateExecute flush env s = (found, s₁) →
          s₁.nextOut = s.nextOut := by
    intro found s₁ hExec
    rcases (deflateExecute_spec hExec).1 with ⟨dict, rfl⟩
    rfl
  have hOutcome := deflateSubmit_outcome flush env s
  generalize deflateSubmit flush env s = ret at *
  cases hOutcome with
  | failed hExec =>
      simp only [hExecute hExec, List.prefix_refl]
  | badOffset hExec _ =>
      simp only [deflateTakeAsv, hExecute hExec,
        List.prefix_refl]
  | @refused ex s₁ s₂ rc hExec _ hResults _ =>
      have hGrows := prefix_deflateProcessResults ex.resp
        (deflateTakeAsv ex.resp s₁)
      rw [hResults] at hGrows
      rw [← hExecute hExec]
      exact hGrows
  | @accepted ex s₁ s₂ hExec _ hResults =>
      have hGrows := prefix_deflateProcessResults ex.resp
        (deflateTakeAsv ex.resp s₁)
      rw [hResults] at hGrows
      rw [← hExecute hExec]
      exact hGrows.trans (prefix_deflateFlush flush s₂)

/- A call never takes back what it has given out. -/
theorem prefix_zedcDeflate
    (flush : Flush) (env : DeflateEnv) (s : DeflStream) :
    s.nextOut <+:
      (zedcDeflate flush env s).strm.nextOut := by
  have hPrepare := prefix_deflatePrepare flush env.now s
  unfold zedcDeflate
  cases hPrepared : deflatePrepare flush env.now s with
  | inl ret =>
      rw [hPrepared] at hPrepare
      exact hPrepare
  | inr s₁ =>
      rw [hPrepared] at hPrepare
      exact hPrepare.trans (prefix_deflateSubmit flush env s₁)

end Zedc
