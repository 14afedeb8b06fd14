import GenWqe.Zedc.Fifo

/-
  The compression side of `struct zedc_stream_s`, the deflate
  DDCB that is sent to the accelerator and its response, and
  the functions of `deflate.c` that set a stream up.

  Key definitions include:
    * `DeflStream`
    * `DeflReq`, `DeflResp` and `DeflateEnv`
    * `deflateInitState`, `zedcDeflateSetDictionary`,
      `zedcDeflateSetHeader`
    * `Ready`

  Main results:
    * `Ready.fresh`
-/

------------------------------------------------------------
-- The Stream
------------------------------------------------------------

namespace Zedc

/-
  `struct gzedc_header_s` as far as a GZIP header is written
  from it. Strings come without their terminating zero.
-/
structure GzipHead where
  time : UInt32
  xflags : UInt8
  os : UInt8
  extra : Option (List UInt8)
  name : Option (List UInt8)
  comment : Option (List UInt8)

/-
  What a deflate stream keeps. `nextIn` is the offered input,
  so that `avail_in` is its length. `nextOut` collects every
  byte stored below `next_out` since the stream was set up,
  across all the buffers the caller has provided.
-/
structure DeflStream where
  format : Format
  dynHuffmanSupported : Bool
  strategyFixed : Bool
  flgCrossCheck : Bool
  flgSkipLastDict : Bool
  gzipHead : Option GzipHead
  nextIn : List UInt8
  totalIn : Nat
  nextOut : List UInt8
  availOut : Nat
  totalOut : Nat
  crc32 : UInt32
  adler32 : UInt32
  dictAdler32 : UInt32
  outFifo : ZedcFifo
  onumbits : Nat
  obyte : UInt8
  eobAdded : Bool
  headerAdded : Bool
  trailerAdded : Bool
  havedict : Bool
  wspPage : Bool
  dict : Bool → ByteMem
  dictLen : UInt16
  outDictOffs : UInt8

/- `avail_in` -/
def DeflStream.availIn (s : DeflStream) : Nat :=
  s.nextIn.length

/- `HDR_BTYPE_FIXED`: a fixed block, not the final one. -/
def hdrBtypeFixed : UInt8 := 0x02

------------------------------------------------------------
-- Requests and Responses
------------------------------------------------------------

/-
  `struct zedc_asiv_defl` with the command options. Buffers
  the card reads are given by their contents, `inDict` from
  the address on that the request names.
-/
structure DeflReq where
  saveDict : Bool
  rasCheck : Bool
  ibufIndir : Bool
  inBuff : List UInt8
  outBuffLen : Nat
  inDict : ByteMem
  inDictLen : UInt16
  outDictLen : Nat
  ibits : UInt8
  inumbits : Nat
  inCrc32 : UInt32
  inAdler32 : UInt32

/-
  What an execution leaves behind: the return code of
  `zedc_execute_request`, RETC, `struct zedc_asv_defl`, and
  the two buffers the card writes.
-/
structure DeflResp where
  rc : Int
  retc : UInt16
  outDictUsed : UInt16
  onumbits : UInt8
  outCrc32 : UInt32
  outAdler32 : UInt32
  inpProcessed : UInt32
  outpReturned : UInt32
  obits : ByteMem
  outDictOffs : UInt8
  obitsExtra : ByteMem
  outBuff : ByteMem
  outDict : ByteMem

/- A request together with the response it got. -/
structure DeflExchange where
  req : DeflReq
  resp : DeflResp

/-
  What a call finds outside the stream: the accelerator, for
  the first and the repeated execution of its request, and
  the clock `time(NULL)`.
-/
structure DeflateEnv where
  accel : Nat → DeflReq → DeflResp
  now : UInt32

/- A return value, the stream, and the accepted exchange. -/
structure DeflRet where
  rc : Rc
  strm : DeflStream
  exchange : Option DeflExchange

------------------------------------------------------------
-- Setting Up
------------------------------------------------------------

/- `__deflateInit_state` -/
def deflateInitState (s : DeflStream) : DeflStream :=
  { s with
    outFifo := ZedcFifo.fifoInit
    nextOut := []
    totalIn := 0
    totalOut := 0
    wspPage := false
    dictLen := 0
    outDictOffs := 0
    obyte := hdrBtypeFixed
    onumbits := 3
    crc32 := 0
    adler32 := 1
    dictAdler32 := 0
    headerAdded := false
    eobAdded := false
    trailerAdded := false
    havedict := false }

/-
  `zedc_deflateSetDictionary`. The checksum of the dictionary
  is handed in, since the stream only stores it.
-/
def zedcDeflateSetDictionary
    (dictionary : List UInt8)
    (adler : UInt32)
    (s : DeflStream) : Rc × DeflStream :=
  if s.headerAdded then (.streamError, s)
  else if dictionary.length > zedcDictLen then
    (.streamError, s)
  else
    (.ok,
      { s with
        dict := fun p =>
          if p then s.dict p
          else (s.dict p).store 0 dictionary
        dictLen := UInt16.ofNat dictionary.length
        dictAdler32 := adler
        havedict := true })

/- A zeroed stream for a format and a kind of card. -/
def DeflStream.zeroed
    (format : Format)
    (dynHuffmanSupported : Bool) : DeflStream where
  format := format
  dynHuffmanSupported := dynHuffmanSupported
  strategyFixed := false
  flgCrossCheck := false
  flgSkipLastDict := false
  gzipHead := none
  nextIn := []
  totalIn := 0
  nextOut := []
  availOut := 0
  totalOut := 0
  crc32 := 0
  adler32 := 0
  dictAdler32 := 0
  outFifo := ZedcFifo.fifoInit
  onumbits := 0
  obyte := 0
  eobAdded := false
  headerAdded := false
  trailerAdded := false
  havedict := false
  wspPage := false
  dict := fun _ _ => 0
  dictLen := 0
  outDictOffs := 0

/- `zedc_deflateSetHeader` -/
def zedcDeflateSetHeader
    (head : Option GzipHead)
    (s : DeflStream) : DeflStream :=
  { s with gzipHead := head }

/- The streams a first `zedc_deflate` call can be made on. -/
inductive Ready : DeflStream → Prop
  | init (s : DeflStream) : Ready (deflateInitState s)
  | setDictionary
      {s : DeflStream}
      (dictionary : List UInt8)
      (adler : UInt32) :
      Ready s →
      Ready (zedcDeflateSetDictionary dictionary adler s).2
  | setHeader
      {s : DeflStream}
      (head : Option GzipHead) :
      Ready s → Ready (zedcDeflateSetHeader head s)

/- The part of a new stream that no setup call changes. -/
structure Fresh (s : DeflStream) : Prop where
  outFifo : s.outFifo.contents = []
  nextOut : s.nextOut = []
  totalIn : s.totalIn = 0
  totalOut : s.totalOut = 0
  obyte : s.obyte = hdrBtypeFixed
  onumbits : s.onumbits = 3
  crc32 : s.crc32 = 0
  adler32 : s.adler32 = 1
  headerAdded : s.headerAdded = false
  eobAdded : s.eobAdded = false
  trailerAdded : s.trailerAdded = false

theorem deflateInitState_fresh (s : DeflStream) :
    Fresh (deflateInitState s) := by
  constructor <;> simp [deflateInitState]

theorem Fresh.setDictionary
    {s : DeflStream}
    (hFresh : Fresh s)
    (dictionary : List UInt8)
    (adler : UInt32) :
    Fresh
      (zedcDeflateSetDictionary dictionary adler s).2 := by
  unfold zedcDeflateSetDictionary
  split
  · exact hFresh
  · split
    · exact hFresh
    · cases hFresh
      constructor <;> assumption

/- Every stream ready for its first call is fresh. -/
theorem Ready.fresh
    {s : DeflStream} (hReady : Ready s) : Fresh s := by
  induction hReady with
  | init s => exact deflateInitState_fresh s
  | setDictionary dictionary adler _ ih =>
      exact ih.setDictionary dictionary adler
  | setHeader head _ ih =>
      cases ih
      constructor <;> assumption

end Zedc
