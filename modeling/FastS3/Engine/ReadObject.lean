import FastS3.Engine.Reader

namespace FastS3.Engine

open FastS3.Core Device

/-! The read path of objects: restored copies, decryption and decompression.

A compressed record is decoded from its start whatever the range is; an encrypted one
is read and authenticated in chunks of 64 KiB.  Errors of the decoder come as the engine
reports them.
-/

def lockNow : EngineM Int := do
  return ((← draw : Nat) : Int)

def readSegmentRaw (seg : Segment) : EngineM Bytes := do
  let dataOff ← extentDataOffset seg.extentId
  let (di, _) ← locateExtent seg.extentId (missingExtent seg.extentId)
  readBatchedBlocks di (dataOff + seg.offset) seg.len

/-- One round of the loop of `read_raw_at_meta`, which ends when the window is full. -/
def readRawAtSegment (offset want : Nat) (progress : Nat × Bytes) (seg : Segment) :
    EngineM (Nat × Bytes) := do
  let (objPos, out) := progress
  let segEnd := objPos + seg.len
  let cur := offset + out.length
  if want ≤ out.length then return (segEnd, out)
  else if cur ≥ segEnd ∨ cur < objPos then return (segEnd, out)
  else
    let take := min (want - out.length) (segEnd - cur)
    let dataOff ← extentDataOffset seg.extentId
    let (di, _) ← locateExtent seg.extentId (missingExtent seg.extentId)
    return (segEnd, out ++ (← readBatchedBlocks di (dataOff + seg.offset + (cur - objPos)) take))

def readRawAtMeta (m : ObjectMeta) (offset len : Nat) : EngineM Bytes := do
  if offset ≥ m.size ∨ len = 0 then return []
  else
    let want := min (m.size - offset) len
    match m.inline with
    | some inline => return slice inline offset want
    | none =>
      let (_, out) ← m.extents.foldlM (readRawAtSegment offset want) (0, [])
      return out

def sseReadDataKey (codec : Codec) (sse : SseInfo) (sseKey : Option Bytes) : EngineM Bytes :=
  match sse.kind with
  | .sseC =>
    match sseKey with
    | some key => return key
    | none =>
      throw (.invalidRequest
        "object is SSE-C encrypted; the customer key is required to read it")
  | .sseS3 => do
      metaCall
      match codec.unwrapSseS3 sse.kekId sse.wrappedDek with
      | some key => return key
      | none =>
        let kekId := sse.kekId
        throw (.corrupt
          s!"sse-s3 DEK unwrap failed (kek gen {kekId}); object data unreadable")
  | .sseKms => ExtentWriter.liftCodec (codec.unwrapKms sse.wrappedDek)

def missingTag (sse : SseInfo) (cno : Nat) : Error :=
  let count := sse.chunkTags.length
  .corrupt s!"sse chunk_tags too short ({count} entries, need chunk {cno})"

def decryptChunk (codec : Codec) (dataKey : Bytes) (sse : SseInfo) (cno : Nat)
    (ciphertext : Bytes) (missing failure : Error) : EngineM Bytes :=
  match sse.chunkTags[cno]? with
  | none => throw missing
  | some tag =>
    match codec.decryptChunk dataKey sse.nonceBase cno ciphertext tag with
    | some plaintext => return plaintext
    | none => throw failure

/-- The chunk loop of `get_to_meta`; every round takes a byte. -/
def readSseLoop (codec : Codec) (m : ObjectMeta) (sse : SseInfo) (dataKey : Bytes) (stop : Nat) :
    Nat → Nat → Bytes → EngineM Bytes
  | 0, _, out => return out
  | fuel + 1, pos, out =>
    if pos < stop then do
      let cno := pos / sseChunkSize
      let cs := cno * sseChunkSize
      let ce := min (cs + sseChunkSize) m.size
      let ciphertext ← getRawToMeta m cs ce
      let plaintext ← decryptChunk codec dataKey sse cno ciphertext (missingTag sse cno) (.corrupt
        (s!"sse-c chunk {cno} authentication failed (corrupt data or wrong customer key): " ++
          "sse-c chunk authentication failed"))
      let taken := min stop ce - pos
      readSseLoop codec m sse dataKey stop fuel (pos + taken)
        (out ++ slice plaintext (pos - cs) taken)
    else return out

/-- The chunk loop of `read_sse_at_meta` over a window of ciphertext. -/
def readSseAtLoop (codec : Codec) (m : ObjectMeta) (sse : SseInfo) (dataKey : Bytes)
    (winStart : Nat) (ciphertext : Bytes) (stop : Nat) : Nat → Nat → Bytes → EngineM Bytes
  | 0, _, out => return out
  | fuel + 1, pos, out =>
    if pos < stop then do
      let cno := pos / sseChunkSize
      let cs := cno * sseChunkSize
      let ce := min (cs + sseChunkSize) m.size
      let plaintext ← decryptChunk codec dataKey sse cno
        (slice ciphertext (cs - winStart) (ce - cs)) (missingTag sse cno)
        (.corrupt s!"sse-c chunk {cno} authentication failed (corrupt data or wrong customer key)")
      let taken := min stop ce - pos
      readSseAtLoop codec m sse dataKey winStart ciphertext stop fuel (pos + taken)
        (out ++ slice plaintext (pos - cs) taken)
    else return out

def readSseAtMeta (codec : Codec) (m : ObjectMeta) (sse : SseInfo) (sseKey : Option Bytes)
    (offset want : Nat) : EngineM Bytes := do
  let dataKey ← sseReadDataKey codec sse sseKey
  let winStart := offset / sseChunkSize * sseChunkSize
  let winEnd := min (divCeil (offset + want) sseChunkSize * sseChunkSize) m.size
  let ciphertext ← readRawAtMeta m winStart (winEnd - winStart)
  let n := ciphertext.length
  let size := winEnd - winStart
  if n ≠ size then
    throw (.corrupt s!"sse-c ciphertext window short read ({n} != {size})")
  readSseAtLoop codec m sse dataKey winStart ciphertext (offset + want) want offset []

/-- A decoder with the inputs it has had, and the number of bytes it has put out. -/
structure Decoder where
  inputs : List Bytes
  windowPos : Nat
deriving Repr, DecidableEq

namespace Decoder

def new : Decoder :=
  ⟨[], 0⟩

def window (d : Decoder) (start stop : Nat) (output : Bytes) : Bytes :=
  let lo := max start d.windowPos
  let hi := min stop (d.windowPos + output.length)
  slice output (lo - d.windowPos) (hi - lo)

def feed (codec : Codec) (d : Decoder) (input : Bytes) : EngineM (Decoder × Bytes) := do
  let output ← ExtentWriter.liftCodec (codec.decode d.inputs input)
  return (⟨d.inputs ++ [input], d.windowPos + output.length⟩, output)

def flush (codec : Codec) (d : Decoder) : EngineM Bytes :=
  ExtentWriter.liftCodec (codec.decodeFlush d.inputs)

end Decoder

/-- The closure `feed` of `read_compressed_meta`. -/
def feedWindow (codec : Codec) (start stop : Nat) (state : Decoder × Bytes) (input : Bytes) :
    EngineM (Decoder × Bytes) := do
  let (d, out) := state
  let (d', output) ← d.feed codec input
  return (d', out ++ d.window start stop output)

/-- The encrypted segments of a compressed stream: a chunk that crosses segments is
taken in pieces. -/
def feedSseSegment (codec : Codec) (sse : SseInfo) (dataKey : Bytes) (start stop streamPos : Nat)
    (raw : Bytes) : Nat → Nat → Decoder × Bytes → EngineM (Decoder × Bytes)
  | 0, _, state => return state
  | fuel + 1, off, state =>
    if off < raw.length then do
      let cno := (streamPos + off) / sseChunkSize
      let chunkStart := cno * sseChunkSize
      let inSeg := chunkStart - streamPos
      let take := min sseChunkSize (streamPos + raw.length - chunkStart)
      let s := max inSeg off
      let t := min (inSeg + take) raw.length
      if s ≥ t then
        feedSseSegment codec sse dataKey start stop streamPos raw fuel
          (off + max (inSeg + take - off) 1) state
      else
        let plaintext ← decryptChunk codec dataKey sse cno (slice raw s (t - s))
          (.corrupt s!"sse chunk_tags too short (need chunk {cno})")
          (.corrupt s!"sse-c chunk {cno} authentication failed (compressed stream)")
        let state ← feedWindow codec start stop state plaintext
        feedSseSegment codec sse dataKey start stop streamPos raw fuel t state
    else return state

def feedSegment (codec : Codec) (m : ObjectMeta) (sseKey : Option Bytes) (start stop : Nat)
    (progress : Nat × Decoder × Bytes) (seg : Segment) : EngineM (Nat × Decoder × Bytes) := do
  let (streamPos, state) := progress
  let raw ← readSegmentRaw seg
  match m.sse with
  | some sse =>
    let dataKey ← sseReadDataKey codec sse sseKey
    let state ← feedSseSegment codec sse dataKey start stop streamPos raw (raw.length + 1) 0 state
    return (streamPos + raw.length, state)
  | none =>
    let state ← feedWindow codec start stop state raw
    return (streamPos + raw.length, state)

def inlineStream (codec : Codec) (m : ObjectMeta) (sseKey : Option Bytes) (inline : Bytes) :
    EngineM Bytes :=
  match m.sse with
  | none => return inline
  | some sse => do
      let dataKey ← sseReadDataKey codec sse sseKey
      match sse.chunkTags[0]? with
      | none => throw (.corrupt "sse inline compressed object missing chunk tag")
      | some tag =>
        match codec.decryptChunk dataKey sse.nonceBase 0 inline tag with
        | some plaintext => return plaintext
        | none => throw (.corrupt "sse inline compressed chunk authentication failed")

def feedStored (codec : Codec) (m : ObjectMeta) (sseKey : Option Bytes) (start stop : Nat) :
    EngineM (Decoder × Bytes) :=
  match m.inline with
  | some inline => do
      let stored ← inlineStream codec m sseKey inline
      feedWindow codec start stop (Decoder.new, []) stored
  | none => do
      let (_, state) ← m.extents.foldlM (feedSegment codec m sseKey start stop)
        (0, Decoder.new, [])
      return state

def readCompressedMeta (codec : Codec) (m : ObjectMeta) (start stop : Nat)
    (sseKey : Option Bytes) : EngineM Bytes := do
  let (d, out) ← feedStored codec m sseKey start stop
  let tail ← d.flush codec
  return out ++ d.window start stop tail

def restorePlaintextView (m : ObjectMeta) : EngineM (Option ObjectMeta) := do
  let now ← lockNow
  match m.restoreState with
  | none => return none
  | some st =>
    if !m.restoreValid now then return none
    else if st.restoredInline.isNone ∧ st.restoredExtents = [] then return none
    else return some { m with
      extents := st.restoredExtents
      inline := st.restoredInline
      compressed := none
      sse := none
      size := st.restoredSize }

/-- The arms of `get_to_meta` behind the choice of the record. -/
def getViewToMeta (codec : Codec) (m : ObjectMeta) (rangeStart rangeEnd : Nat)
    (sseKey : Option Bytes) : EngineM Bytes := do
  let start := min rangeStart m.size
  let stop := min rangeEnd m.size
  if start ≥ stop then return []
  else
    match m.compressed with
    | some _ => readCompressedMeta codec m start stop sseKey
    | none =>
      match m.sse with
      | some sse =>
        let dataKey ← sseReadDataKey codec sse sseKey
        readSseLoop codec m sse dataKey stop (stop - start) start []
      | none => getRawToMeta m start stop

def getToMeta (codec : Codec) (m : ObjectMeta) (rangeStart rangeEnd : Nat)
    (sseKey : Option Bytes) : EngineM Bytes := do
  let view ← restorePlaintextView m
  getViewToMeta codec (view.getD m) rangeStart rangeEnd sseKey

end FastS3.Engine
