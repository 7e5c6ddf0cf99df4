import FastS3.Engine.State

namespace FastS3.Engine

open Alloc FastS3.Core Device

/-! The write pipeline: a byte stream becomes segments of open extents.

The stream is collected into blocks of 64 KiB.  A block is written at the watermark
of the open extent of the current device, padded to a sector; an extent that is full
is sealed and the object goes on in a new one.
-/

def pickDevice : EngineM Nat := do
  let choice ← draw
  let e ← get
  return choice % e.devices.length

/-- `device_space_weights`, one value for each device. -/
def deviceSpaceWeights : EngineM (List Nat) := do
  let e ← get
  e.devices.foldlM (fun weights _ => do return weights ++ [← draw]) []

def deviceRotationOrder (prefer : Option Nat) : EngineM (List Nat) := do
  let e ← get
  let order := List.range e.devices.length
  let order := match prefer with
    | some p => if p < order.length then p :: order.erase p else order
    | none => order
  let weights ← deviceSpaceWeights
  return order.take 1 ++
    (order.drop 1).mergeSort fun a b => decide (weights.getD b 0 ≤ weights.getD a 0)

def writeExtentHeader (extentId : Nat) (packed : Bool) (chunkCrcs : List UInt32) :
    EngineM Unit := do
  let e ← get
  let header : ExtentHeader := {
    generation := e.alloc.generations extentId
    flags := if packed then extentFlagPacked else 0
    chunkSize := if packed then 0 else e.chunkSize
    chunkCrcs := if packed then [] else chunkCrcs }
  let (di, _) ← locateExtent extentId (.corrupt "extent out of pool range")
  let off ← extentHeaderOffset extentId
  writeAll di header.encode off

/-- Round `i` of the loop covers the grid cell that starts at `i * 64 KiB`. -/
def computeExtentCrcs (extentId capacity : Nat) : EngineM (List UInt32) := do
  let (di, _) ← locateExtent extentId (.corrupt "extent out of pool range")
  let base ← extentDataOffset extentId
  (List.range (divCeil capacity segmentCrcGrid)).foldlM
    (fun crcs i => do
      let off := i * segmentCrcGrid
      let chunkLen := min (off + segmentCrcGrid) capacity - off
      let buf ← readExact di (base + off) (alignUp chunkLen sectorSize)
      return crcs ++ [crc32c (buf.take chunkLen) 0])
    []

def markSealed (id : Nat) : EngineM Unit :=
  modify fun e => { e with alloc := e.alloc.markSealed id }

def markOpen (id : Nat) : EngineM Unit :=
  modify fun e => { e with alloc := e.alloc.markOpen id }

def sealOpenExtentAt (di : Nat) : EngineM Unit := do
  let e ← get
  match (e.openExtents[di]?).join with
  | none => return ()
  | some oe =>
    set (e.setOpen di none)
    let slot ← slotAt di
    let capacity := slot.extentCapacity
    if oe.participants = 1 ∧ oe.watermark ≥ capacity then
      let crcs ← computeExtentCrcs oe.extentId capacity
      writeExtentHeader oe.extentId false crcs
      markSealed oe.extentId
    else
      writeExtentHeader oe.extentId true []
      markSealed oe.extentId

/-- The device for a new object is chosen once; an extent with too little room for
any object that is not inlined is sealed first. -/
def rotateForNewObject : EngineM Unit := do
  let di ← pickDevice
  modify fun e => { e with curDevice := di }
  let slot ← slotAt di
  let e ← get
  match (e.openExtents[di]?).join with
  | none => return ()
  | some oe =>
    let remaining := slot.extentCapacity - oe.watermark
    if remaining < e.smallObjectLimit ∨ oe.watermark ≥ slot.extentCapacity then
      sealOpenExtentAt di
    else
      return ()

def MetaStore.holdings (store : MetaStore) : List (List Segment) :=
  store.objects.entries.map (fun entry => entry.2.extents ++ entry.2.restoredExtents) ++
    store.parts.entries.map fun entry => entry.2.extents

/-- What the stored records occupy of an extent: the highest end, the bytes of the
distinct ranges and the number of records. -/
def liveExtentOccupancy (extentId : Nat) : EngineM (Nat × Nat × Nat) := do
  metaCall
  metaCall
  let e ← get
  let held := e.store.holdings.map fun segs => segs.filter fun s => s.extentId = extentId
  let ranges := held.flatten.map fun s => (s.offset, s.len)
  return (min ((ranges.map fun range => range.1 + range.2).foldl max 0) u32Max,
    min (ranges.dedup.map Prod.snd).sum u32Max, (held.filter (· ≠ [])).length)

def openOpenExtent (id watermark committed participants : Nat) : EngineM Unit := do
  let e ← get
  let (di, _) ← expect "newly allocated extent is always in pool range"
    (resolveExtent e.devices id)
  set ({ e with curDevice := di }.setOpen di (some ⟨id, watermark, committed, participants⟩))

def allocateInRange (start count : Nat) : EngineM (Option Nat) := do
  let hint ← draw
  modifyGet fun e =>
    let (alloc, draft, found) := e.alloc.allocateInRange e.draft hint start count
    (found, { e with alloc := alloc, draft := draft })

def restoreOccupancy (id live refcount : Nat) : EngineM Unit :=
  modify fun e => { e with alloc := e.alloc.restoreOccupancy id live refcount }

/-- The attempts to open a new extent on one device.  An extent that stored records
still occupy is continued behind them, or sealed when they fill it. -/
def openExtentOn (capacity : Nat) (slot : DeviceSlot) : Nat → EngineM Bool
  | 0 => return false
  | attempts + 1 => do
      match ← allocateInRange slot.base slot.extentCount with
      | none => return false
      | some id =>
        let (maxEnd, liveSum, holders) ← liveExtentOccupancy id
        if maxEnd = 0 then
          markOpen id
          openOpenExtent id 0 0 1
          return true
        else
          restoreOccupancy id liveSum (max holders 1)
          let wm := alignUp maxEnd sectorSize
          if wm < capacity then
            markOpen id
            openOpenExtent id wm wm (max holders 2)
            return true
          else
            markSealed id
            openExtentOn capacity slot attempts

def openExtentAmong (capacity : Nat) : List Nat → EngineM Unit
  | [] => throw .noSpace
  | di :: rest => do
      let slot ← slotAt di
      if ← openExtentOn capacity slot slot.extentCount then return ()
      else openExtentAmong capacity rest

def openNewExtent (prefer : Option Nat) : EngineM Unit := do
  let e ← get
  let order ← deviceRotationOrder prefer
  openExtentAmong e.mainSb.extentCapacity order

/-- MD5 is not computed: the digest of a byte string is that string, marked. -/
inductive Etag where
  | md5 (content : Bytes)
  | crc32c (sum : UInt32)
deriving Repr, DecidableEq

structure SseWriteKey where
  kind : SseKind
  kekId : Nat
  wrappedDek : Bytes
  dataKey : Bytes
  keyMd5 : Bytes
deriving Repr, DecidableEq

/-- The compression and encryption libraries and the key services.  Streaming encoders
and decoders are described by the inputs they have had. -/
structure Codec where
  encode : Nat → List Bytes → Bytes → Except Error Bytes
  finish : Nat → List Bytes → Except Error Bytes
  /-- `zstd::bulk::compress`. -/
  compress : Nat → Bytes → Except Error Bytes
  /-- `zstd::bulk::decompress` with room for a number of bytes. -/
  decompress : Bytes → Nat → Except Error Bytes
  decode : List Bytes → Bytes → Except Error Bytes
  decodeFlush : List Bytes → Except Error Bytes
  /-- Data key, nonce base, chunk number and plaintext give ciphertext and tag. -/
  encryptChunk : Bytes → Bytes → Nat → Bytes → Bytes × Bytes
  /-- The plaintext, unless the tag does not authenticate. -/
  decryptChunk : Bytes → Bytes → Nat → Bytes → Bytes → Option Bytes
  /-- The data key that a generation of the key encryption key unwraps. -/
  unwrapSseS3 : Nat → Bytes → Option Bytes
  /-- The wrapped data key moves from one generation to another. -/
  rewrapSseS3 : Nat → Nat → Bytes → Option Bytes
  mintSseS3 : Bytes → Except Error SseWriteKey
  unwrapKms : Bytes → Except Error Bytes
  sessionKms : String → String → SessionSseKms → Except Error SseWriteKey
  mintKms : String → String → SessionSseKms → Bytes → Except Error SseWriteKey
  /-- Data key, upload and part number give the nonce base of a part. -/
  derivePartNonceBase : Bytes → String → Nat → Bytes

def storingCodec : Codec where
  encode := fun _ _ data => .ok data
  finish := fun _ _ => .ok []
  compress := fun _ data => .ok data
  decompress := fun data _ => .ok data
  decode := fun _ data => .ok data
  decodeFlush := fun _ => .ok []
  encryptChunk := fun _ _ _ data => (data, [])
  decryptChunk := fun _ _ _ data _ => some data
  unwrapSseS3 := fun _ wrapped => some wrapped
  rewrapSseS3 := fun _ _ wrapped => some wrapped
  mintSseS3 := fun random => .ok ⟨.sseS3, 0, random, random, []⟩
  unwrapKms := fun wrapped => .ok wrapped
  sessionKms := fun _ _ _ => .ok ⟨.sseKms, 0, [], [], []⟩
  mintKms := fun _ _ _ random => .ok ⟨.sseKms, 0, random, random, []⟩
  derivePartNonceBase := fun _ _ _ => []

structure ZstdEncoder where
  level : Nat
  inputs : List Bytes
  outBytes : Nat
deriving Repr, DecidableEq

structure SseWriteState where
  key : SseWriteKey
  nonceBase : Bytes
  staging : Bytes
  chunkTags : List Bytes
deriving Repr, DecidableEq

def sseChunkSize : Nat := 64 * 1024

structure ExtentWriter where
  chunkSize : Nat
  capacity : Nat
  /-- The filled part of the block buffer, `acc[..fill]`. -/
  acc : Bytes
  hasher : Option Bytes
  crcAcc : UInt32
  started : Bool
  segPartial : UInt32
  segFill : Nat
  segCrcs : List UInt32
  segOffset : Nat
  segWritten : Nat
  segments : List Segment
  size : Nat
  sse : Option SseWriteState
  compression : Option ZstdEncoder
  compressedOut : Nat
  hasherPlainFed : Bool
  liveCounted : Nat
deriving Repr, DecidableEq

structure StreamWriteOutcome where
  segments : List Segment
  size : Nat
  etag : Etag
  sse : Option SseInfo
  compressedSize : Option Nat
deriving Repr, DecidableEq

namespace ExtentWriter

def plain (chunkSize : Nat) (etagMode : EtagMode) : ExtentWriter where
  chunkSize := chunkSize
  capacity := 0
  acc := []
  hasher := match etagMode with
    | .md5 => some []
    | .crc32c => none
  crcAcc := 0
  started := false
  segPartial := 0
  segFill := 0
  segCrcs := []
  segOffset := 0
  segWritten := 0
  segments := []
  size := 0
  sse := none
  compression := none
  compressedOut := 0
  hasherPlainFed := false
  liveCounted := 0

def new (chunkSize : Nat) (etagMode : EtagMode) (sseKey : Option SseWriteKey)
    (sseNonceBase : Option Bytes) (compressionLevel : Nat) : EngineM ExtentWriter := do
  let compression := if compressionLevel = 0 then none else some ⟨compressionLevel, [], 0⟩
  match sseKey with
  | none => return { plain chunkSize etagMode with compression := compression }
  | some key =>
    let nonceBase ← match sseNonceBase with
      | some nonceBase => pure nonceBase
      | none => randomBytes 12
    return { plain chunkSize etagMode with
      compression := compression
      sse := some ⟨key, nonceBase, [], []⟩ }

def catchUpLive (w : ExtentWriter) : EngineM ExtentWriter := do
  modify fun e =>
    let (alloc, draft) := (w.segments.drop w.liveCounted).foldl
      (fun session seg => session.1.noteInflightSegment session.2 seg) (e.alloc, e.draft)
    { e with alloc := alloc, draft := draft }
  return { w with liveCounted := w.segments.length }

def beginSegment (w : ExtentWriter) : EngineM ExtentWriter := do
  let oe ← expect "open extent" (← get).curOpen
  return { w with
    segOffset := oe.watermark
    segPartial := 0
    segFill := 0
    segCrcs := []
    segWritten := 0 }

def addToGrid (w : ExtentWriter) : ExtentWriter :=
  let sum := crc32c w.acc w.segPartial
  let fill := w.segFill + w.acc.length
  if fill ≥ segmentCrcGrid then
    { w with segCrcs := w.segCrcs ++ [sum], segPartial := 0, segFill := fill - segmentCrcGrid }
  else { w with segPartial := sum, segFill := fill }

def flushAcc (w : ExtentWriter) : EngineM ExtentWriter := do
  if w.acc = [] then return w
  let writeLen := alignUp w.acc.length sectorSize
  let data := w.acc ++ zeroBytes (writeLen - w.acc.length)
  let oe ← expect "open extent" (← get).curOpen
  let devOff := (← extentDataOffset oe.extentId) + oe.watermark
  let (di, _) ← locateExtent oe.extentId (.corrupt "extent out of pool range")
  writeAll di data devOff
  modify fun e =>
    e.setOpen e.curDevice (some { oe with watermark := oe.watermark + writeLen })
  return { w.addToGrid with
    crcAcc := crc32c w.acc w.crcAcc
    segWritten := w.segWritten + w.acc.length
    hasher := if w.hasherPlainFed then w.hasher else w.hasher.map (· ++ w.acc)
    acc := [] }

def closeGrid (w : ExtentWriter) : ExtentWriter :=
  if w.segFill > 0 then
    { w with segCrcs := w.segCrcs ++ [w.segPartial], segPartial := 0, segFill := 0 }
  else w

def endSegment (w : ExtentWriter) : EngineM ExtentWriter := do
  let w := w.closeGrid
  let e ← get
  let oe ← expect "open extent" e.curOpen
  set (e.setOpen e.curDevice none)
  let segment : Segment := ⟨oe.extentId, w.segOffset, w.segWritten, w.segCrcs⟩
  if oe.participants = 1 then
    writeExtentHeader oe.extentId false w.segCrcs
    markSealed oe.extentId
    return { w with segments := w.segments ++ [segment], segCrcs := [] }
  else
    writeExtentHeader oe.extentId true []
    markSealed oe.extentId
    return { w with segments := w.segments ++ [segment], segCrcs := [] }

def startObject (w : ExtentWriter) : EngineM ExtentWriter := do
  if w.started then return w
  rotateForNewObject
  let e ← get
  match e.curOpen with
  | none => return { w with started := true }
  | some oe =>
    set (e.setOpen e.curDevice (some { oe with participants := oe.participants + 1 }))
    beginSegment { w with started := true }

def ensureOpen (w : ExtentWriter) : EngineM ExtentWriter := do
  let e ← get
  match e.curOpen with
  | some _ => return w
  | none =>
    openNewExtent (some e.curDevice)
    beginSegment w

def endIfFull (w : ExtentWriter) : EngineM ExtentWriter := do
  let oe ← expect "open extent" (← get).curOpen
  if oe.watermark ≥ w.capacity then
    let w ← w.endSegment
    w.catchUpLive
  else
    return w

/-- One round of the loop of `feed_bytes`: the block is flushed when it or the
extent is full, and otherwise takes bytes.  Returns the bytes still to come. -/
def feedRound (w : ExtentWriter) (data : Bytes) : EngineM (ExtentWriter × Bytes) := do
  let w ← w.startObject
  let w ← w.ensureOpen
  let oe ← expect "open extent" (← get).curOpen
  if w.acc.length = w.chunkSize ∨ oe.watermark + w.acc.length ≥ w.capacity then
    let w ← w.flushAcc
    let w ← w.endIfFull
    return (w, data)
  else
    let space := w.capacity - oe.watermark - w.acc.length
    let take := min (min data.length space) (w.chunkSize - w.acc.length)
    return ({ w with acc := w.acc ++ data.take take }, data.drop take)

/-- Every second round takes a byte, so twice the length is enough fuel.  A loop
that ran out would lose bytes. -/
def feedLoop : Nat → ExtentWriter → Bytes → EngineM ExtentWriter
  | _, w, [] => return w
  | 0, w, _ :: _ => return w
  | fuel + 1, w, byte :: rest => do
      let (w, data) ← w.feedRound (byte :: rest)
      feedLoop fuel w data

def feedBytes (w : ExtentWriter) (data : Bytes) : EngineM ExtentWriter := do
  let e ← get
  let w := if w.capacity = 0 then { w with capacity := e.mainSb.extentCapacity } else w
  feedLoop (2 * data.length) w data

def closeSegment (w : ExtentWriter) : EngineM ExtentWriter := do
  match (← get).curOpen with
  | none => return w
  | some oe =>
    let w := w.closeGrid
    return { w with
      segments := w.segments ++ [⟨oe.extentId, w.segOffset, w.segWritten, w.segCrcs⟩]
      segCrcs := [] }

def endIfExactlyFull (w : ExtentWriter) : EngineM ExtentWriter := do
  let e ← get
  match e.curOpen with
  | some oe => if oe.watermark ≥ e.mainSb.extentCapacity then w.endSegment else return w
  | none => return w

def finishBytes (w : ExtentWriter) : EngineM ExtentWriter := do
  let w ← w.flushAcc
  let w ← w.endIfExactlyFull
  let w ← w.closeSegment
  w.catchUpLive

def etag (w : ExtentWriter) : Etag :=
  match w.hasher with
  | some content => .md5 content
  | none => .crc32c w.crcAcc

def encryptStagedChunk (codec : Codec) (w : ExtentWriter) (st : SseWriteState) :
    Bytes × ExtentWriter :=
  let (ciphertext, tag) :=
    codec.encryptChunk st.key.dataKey st.nonceBase st.chunkTags.length st.staging
  (ciphertext, { w with sse := some { st with staging := [], chunkTags := st.chunkTags ++ [tag] } })

/-- The staging loop of `feed_stream`; every round takes a byte. -/
def stageLoop (codec : Codec) : Nat → ExtentWriter → SseWriteState → Bytes → EngineM ExtentWriter
  | _, w, st, [] => return { w with sse := some st }
  | 0, w, st, _ :: _ => return { w with sse := some st }
  | fuel + 1, w, st, byte :: rest => do
      let data := byte :: rest
      let take := min (sseChunkSize - st.staging.length) data.length
      let st := { st with staging := st.staging ++ data.take take }
      if st.staging.length = sseChunkSize then
        let (ciphertext, w) := encryptStagedChunk codec w st
        let w ← w.feedBytes ciphertext
        match w.sse with
        | some st => stageLoop codec fuel w st (data.drop take)
        | none => return w
      else
        stageLoop codec fuel w st (data.drop take)

def feedStream (codec : Codec) (w : ExtentWriter) (data : Bytes) : EngineM ExtentWriter :=
  match w.sse with
  | none => w.feedBytes data
  | some st => stageLoop codec data.length w st data

def liftCodec {α : Type} : Except Error α → EngineM α
  | .ok value => pure value
  | .error e => throw e

def feed (codec : Codec) (w : ExtentWriter) (data : Bytes) : EngineM ExtentWriter := do
  let w := { w with size := w.size + data.length }
  if w.size > maxObjectSize then
    throw (.invalidArgument "object exceeds 5TiB limit")
  else
    match w.compression with
    | none => w.feedStream codec data
    | some z =>
      let out ← liftCodec (codec.encode z.level z.inputs data)
      let z := { z with inputs := z.inputs ++ [data], outBytes := z.outBytes + out.length }
      let w := { w with
        hasher := w.hasher.map (· ++ data)
        hasherPlainFed := true
        compression := some z
        compressedOut := z.outBytes }
      if out = [] then return w else w.feedStream codec out

def finishCompression (codec : Codec) (w : ExtentWriter) : EngineM ExtentWriter :=
  match w.compression with
  | none => return w
  | some z => do
      let tail ← liftCodec (codec.finish z.level z.inputs)
      let w := { w with compression := none, compressedOut := z.outBytes + tail.length }
      if tail = [] then return w else w.feedStream codec tail

def finishSse (codec : Codec) (w : ExtentWriter) : EngineM ExtentWriter :=
  match w.sse with
  | none => return w
  | some st =>
    if st.staging = [] then return w
    else
      let (ciphertext, w) := encryptStagedChunk codec w st
      w.feedBytes ciphertext

def finish (codec : Codec) (w : ExtentWriter) : EngineM StreamWriteOutcome := do
  let w ← w.finishCompression codec
  let w ← w.finishSse codec
  let w ← w.finishBytes
  let e ← get
  if e.syncFull then fsync e.curDevice
  return {
    segments := w.segments
    size := w.size
    etag := w.etag
    sse := w.sse.map fun st =>
      ⟨st.key.kind, st.key.kekId, st.key.wrappedDek, st.nonceBase, st.chunkTags, st.key.keyMd5⟩
    compressedSize :=
      if w.compressedOut > 0 ∨ w.hasherPlainFed then some w.compressedOut else none }

end ExtentWriter

end FastS3.Engine
