import GenWqe.Zedc.Codes
import GenWqe.Lib.ByteMem

/-
  The decompression side of `struct zedc_stream_s`, the
  inflate DDCB that is sent to the accelerator, its response,
  and the set-up of a stream.

  Key definitions include:
    * `InflStream` with `Prefx`, `Postfx`, `SaveArea`,
      `DictArea` and `Asv`
    * `InflReq`, `InflResp` and `InflExchange`
    * `inflateInitState`
-/

------------------------------------------------------------
-- The Header and the Trailer
------------------------------------------------------------

namespace Zedc

/- `head_state` -/
inductive HeadState where
  | headerStart
  | flagsCheckEmpty
  | flagsCheckExtra
  | flagsGetExtraLen1
  | flagsGetExtraLen2
  | flagsGetExtra
  | flagsCheckFname
  | flagsGetFname
  | flagsCheckFcomment
  | flagsGetFcomment
  | flagsCheckFhcrc
  | flagsGetFhcrc1
  | flagsGetFhcrc2
  | flagsCheckFtext
  | zlibAdler
  | headerDone
  deriving DecidableEq, Repr

/-
  `struct gzedc_header_s` as far as it is read into. A buffer
  is `none` where its pointer is NULL.
-/
structure GzedcHeader where
  text : Bool
  time : Nat
  xflags : UInt8
  os : UInt8
  extra : Option ByteMem
  extraLen : UInt16
  extraMax : UInt32
  name : Option ByteMem
  nameMax : UInt32
  comment : Option ByteMem
  commMax : UInt32
  done : Bool

/-
  The state of removing a GZIP/ZLIB header: `prefx_len`,
  `prefx_idx`, `prefx`, `xlen`, `header_state`, `gzip_hcrc`,
  `gzip_header_idx` and `gzip_head`.
-/
structure Prefx where
  len : Nat
  idx : Nat
  bytes : ByteMem
  xlen : UInt16
  headerState : HeadState
  gzipHcrc : UInt16
  gzipHeaderIdx : Nat
  gzipHead : Option GzedcHeader

/-
  The state of removing a GZIP/ZLIB trailer: `postfx_len`,
  `postfx_idx`, `postfx`, and the values read from it.
-/
structure Postfx where
  len : Nat
  idx : Nat
  bytes : ByteMem
  fileCrc32 : UInt32
  fileSize : UInt32
  fileAdler32 : UInt32

------------------------------------------------------------
-- The Workspace
------------------------------------------------------------

/-
  `wsp->tree` with the lengths of its parts: `hdr_ib` ignored
  bits, `tree_bits` of a block header, `pad_bits`, then
  `scratch_ib` ignored bits and `scratch_bits` of input that
  was taken and not processed.
-/
structure SaveArea where
  tree : ByteMem
  hdrIb : Nat
  treeBits : Nat
  padBits : Nat
  scratchIb : Nat
  scratchBits : Nat

/-
  `wsp->dict`, the page in use, and the part of it that holds
  the dictionary, the end of which may be output that did not
  fit (`obytes_in_dict`).
-/
structure DictArea where
  dict : Bool → ByteMem
  wspPage : Bool
  dictLen : Nat
  outDictOffs : Nat
  obytesInDict : Nat

/- The values kept of the latest response. -/
structure Asv where
  inpProcessed : Nat
  outpReturned : Nat
  procBits : Nat
  inflStat : UInt8
  hdrStart : Nat
  outHdrBits : Nat
  outHdrStartBits : Nat
  copyblockLen : UInt16

/- `INFL_STAT_PASSED_EOB` -/
def passedEob (stat : UInt8) : Bool :=
  stat &&& 0x01 != 0

/- `INFL_STAT_FINAL_EOB` -/
def finalEob (stat : UInt8) : Bool :=
  stat &&& 0x04 != 0

/- `INFL_STAT_REACHED_EOB` -/
def reachedEob (stat : UInt8) : Bool :=
  stat &&& 0x08 != 0

/- `INFL_STAT_HDR_TYPE` is zero for a stored block. -/
def hdrTypeStored (stat : UInt8) : Bool :=
  stat &&& 0x60 == 0

/- `INFL_STAT_HDR_BFINAL` -/
def hdrBfinal (stat : UInt8) : Bool :=
  stat &&& 0x80 != 0

------------------------------------------------------------
-- The Stream
------------------------------------------------------------

/-
  What an inflate stream keeps. `nextIn` is the offered input,
  so that `avail_in` is its length. `nextOut` collects every
  byte stored below `next_out` since the stream was set up,
  across all the buffers the caller has provided. Of
  `data_type` only the bit 0x80 is kept, of
  `dma_type[ZEDC_OUT]` whether it is an sg-list.
-/
structure InflStream where
  format : Format
  flgCrossCheck : Bool
  flgSkipLastDict : Bool
  dmaOutSglist : Bool
  dataType80 : Bool
  nextIn : List UInt8
  totalIn : Nat
  nextOut : List UInt8
  availOut : Nat
  totalOut : Nat
  crc32 : UInt32
  adler32 : UInt32
  dictAdler32 : UInt32
  eobSeen : Bool
  havedict : Bool
  prefx : Prefx
  postfx : Postfx
  save : SaveArea
  dict : DictArea
  asv : Asv
  inHdrScratchLen : Nat
  inHdrBits : Nat
  preScratchBits : Nat
  inpDataOffs : Nat
  inDataUsed : Nat

/- `avail_in` -/
def InflStream.availIn (s : InflStream) : Nat :=
  s.nextIn.length

/- The bytes at the end of the dictionary still to be output. -/
def DictArea.pending (d : DictArea) : List UInt8 :=
  (d.dict d.wspPage).window
    (d.outDictOffs + d.dictLen - d.obytesInDict)
    d.obytesInDict

@[simp] theorem DictArea.length_pending (d : DictArea) :
    d.pending.length = d.obytesInDict := by
  simp [DictArea.pending]

/- The stream after `n` bytes of input were taken. -/
def InflStream.advance
    (n : Nat) (s : InflStream) : InflStream :=
  { s with
    nextIn := s.nextIn.drop n
    totalIn := s.totalIn + n }

------------------------------------------------------------
-- Requests and Responses
------------------------------------------------------------

/-
  `struct zedc_asiv_infl` with the command options. Buffers
  the card reads are given by their contents, `inDict` from
  the address on that the request names. An `out_dict_len` of
  zero stands for an `out_dict` of zero as well.
-/
structure InflReq where
  saveDict : Bool
  rasCheck : Bool
  inBuff : List UInt8
  outBuffLen : Nat
  inpScratch : ByteMem
  inScratchLen : Nat
  scratchIb : Nat
  hdrIb : Nat
  inHdrBits : Nat
  inDict : ByteMem
  inDictLen : Nat
  outDictLen : Nat
  inCrc32 : UInt32
  inAdler32 : UInt32

/-
  What an execution leaves behind: the return code of
  `zedc_execute_request`, RETC and ATTN,
  `struct zedc_asv_infl`, and the two buffers the card writes.
-/
structure InflResp where
  rc : Int
  retc : UInt16
  attn : UInt16
  outDictUsed : UInt16
  copyblockLen : UInt16
  inflStat : UInt8
  procBits : UInt8
  hdrStart : UInt32
  hdrStartBits : UInt8
  outHdrBits : UInt16
  outCrc32 : UInt32
  outAdler32 : UInt32
  inpProcessed : UInt32
  outpReturned : UInt32
  outDictOffs : UInt8
  obytesInDict : UInt16
  outBuff : ByteMem
  outDict : ByteMem

/- A completed request of which nothing is reported. -/
def quietResp : InflResp where
  rc := 0
  retc := ddcbRetcComplete
  attn := 0
  outDictUsed := 0
  copyblockLen := 0
  inflStat := 0
  procBits := 0
  hdrStart := 0
  hdrStartBits := 0
  outHdrBits := 0
  outCrc32 := 0
  outAdler32 := 1
  inpProcessed := 0
  outpReturned := 0
  outDictOffs := 0
  obytesInDict := 0
  outBuff := fun _ => 0
  outDict := fun _ => 0

/- A request together with the response it got. -/
structure InflExchange where
  req : InflReq
  resp : InflResp

/-
  The accelerator, for the first and the repeated execution of
  the request of a call.
-/
structure InflateEnv where
  accel : Nat → InflReq → InflResp

/-
  A return value, the stream, and the exchange the results of
  which were taken.
-/
structure InflRet where
  rc : Rc
  strm : InflStream
  exchange : Option InflExchange

/- The bits processed, from the first bit offered on. -/
def InflResp.processed (resp : InflResp) : Nat :=
  8 * resp.inpProcessed.toNat + resp.procBits.toNat

/- Where the reported header starts, in bits. -/
def InflResp.hdrStartTotal (resp : InflResp) : Nat :=
  8 * resp.hdrStart.toNat + resp.hdrStartBits.toNat

------------------------------------------------------------
-- Setting Up
------------------------------------------------------------

/- `__inflateInit_state` -/
def inflateInitState (s : InflStream) : InflStream :=
  { s with
    totalIn := 0
    totalOut := 0
    nextOut := []
    dictAdler32 := 0
    crc32 := 0
    adler32 := 1
    eobSeen := false
    havedict := false
    prefx :=
      { s.prefx with
        len := 0
        idx := 0
        bytes := fun _ => 0
        xlen := 0
        headerState := .headerStart }
    postfx :=
      { s.postfx with
        len := 0
        idx := 0
        bytes := fun _ => 0
        fileCrc32 := 0
        fileAdler32 := 0 }
    save :=
      { s.save with
        hdrIb := 0
        treeBits := 0
        padBits := 0
        scratchIb := 0
        scratchBits := 0 }
    dict :=
      { s.dict with
        wspPage := false
        dictLen := 0
        outDictOffs := 0
        obytesInDict := 0 }
    asv := ⟨0, 0, 0, 0, 0, 0, 0, 0⟩
    inHdrScratchLen := 0
    inHdrBits := 0
    preScratchBits := 0
    inpDataOffs := 0
    inDataUsed := 0 }

/- A zeroed stream for a format. -/
def InflStream.zeroed (format : Format) : InflStream where
  format := format
  flgCrossCheck := false
  flgSkipLastDict := false
  dmaOutSglist := false
  dataType80 := false
  nextIn := []
  totalIn := 0
  nextOut := []
  availOut := 0
  totalOut := 0
  crc32 := 0
  adler32 := 0
  dictAdler32 := 0
  eobSeen := false
  havedict := false
  prefx := ⟨0, 0, fun _ => 0, 0, .headerStart, 0, 0, none⟩
  postfx := ⟨0, 0, fun _ => 0, 0, 0, 0⟩
  save := ⟨fun _ => 0, 0, 0, 0, 0, 0⟩
  dict := ⟨fun _ _ => 0, false, 0, 0, 0⟩
  asv := ⟨0, 0, 0, 0, 0, 0, 0, 0⟩
  inHdrScratchLen := 0
  inHdrBits := 0
  preScratchBits := 0
  inpDataOffs := 0
  inDataUsed := 0

end Zedc
