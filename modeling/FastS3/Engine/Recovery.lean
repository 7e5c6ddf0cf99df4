import FastS3.Data.Fallible
import FastS3.Engine.State

namespace FastS3.Engine

open Alloc FastS3.Core Data Device

/-! Recovery of the open extents after a crash.

`resume_open_extent` runs once for each device.  Header i/o takes local extent
ids, the allocator takes global ones; the model records every access to the
allocator and every header written, so that the two can be compared.
-/

inductive Access where
  | testBit (id : Nat)
  | liveBytesOf (id : Nat)
  | refcount (id : Nat)
  | generation (id : Nat)
  | writeHeader (extentId : Nat) (header : ExtentHeader)
  | markSealed (id : Nat)
  | markOpen (id : Nat)
deriving Repr, DecidableEq

structure Recovery where
  alloc : Allocator
  dev : BlockDevice
  accesses : List Access

abbrev RecoveryM := EStateM Error Recovery

namespace Recovery

def consult {α : Type} (access : Access) (value : Allocator → α) : RecoveryM α :=
  modifyGet fun s => (value s.alloc, { s with accesses := s.accesses ++ [access] })

def testBit (id : Nat) : RecoveryM Bool :=
  consult (.testBit id) fun a => a.bitmap.test id

def liveBytesOf (id : Nat) : RecoveryM UInt32 :=
  consult (.liveBytesOf id) fun a => a.liveBytes id

def refcount (id : Nat) : RecoveryM UInt32 :=
  consult (.refcount id) fun a => a.refcounts id

def generation (id : Nat) : RecoveryM Nat :=
  consult (.generation id) fun a => a.generations id

def markSealed (id : Nat) : RecoveryM Unit :=
  modifyGet fun s =>
    ((), { s with alloc := s.alloc.markSealed id, accesses := s.accesses ++ [.markSealed id] })

def markOpen (id : Nat) : RecoveryM Unit :=
  modifyGet fun s =>
    ((), { s with alloc := s.alloc.markOpen id, accesses := s.accesses ++ [.markOpen id] })

def preadAligned (off len : Nat) : RecoveryM Bytes := fun s =>
  match s.dev.preadAligned off len with
  | (.ok bytes, dev) => .ok bytes { s with dev := dev }
  | (.error e, dev) => .error e { s with dev := dev }

/-- Writes the header of `extentId`; a header that reached the device is recorded. -/
def pwriteHeader (extentId : Nat) (header : ExtentHeader) (off : Nat) : RecoveryM Unit := fun s =>
  match s.dev.pwriteAligned header.encode off with
  | (.ok (), dev) =>
    .ok () { s with dev := dev, accesses := s.accesses ++ [.writeHeader extentId header] }
  | (.error e, dev) => .error e { s with dev := dev }

end Recovery

open Recovery

/-- A missing or torn header reads as `none`. -/
def readExtentHeaderRaw (sb : SuperBlock) (extentId : Nat) : RecoveryM (Option ExtentHeader) := do
  let buf ← preadAligned (extentOffset sb extentId) sectorSize
  match ExtentHeader.decode buf with
  | .ok header => return some header
  | .error _ => return none

/-- Round `i` of the loop covers the grid cell that starts at `i * 64 KiB`. -/
def computeExtentCrcsRaw (sb : SuperBlock) (extentId capacity : Nat) : RecoveryM (List UInt32) :=
  let base := extentOffset sb extentId + extentHeaderSize
  (List.range (divCeil capacity segmentCrcGrid)).foldlM
    (fun crcs i => do
      let off := i * segmentCrcGrid
      let chunkLen := min (off + segmentCrcGrid) capacity - off
      let buf ← preadAligned (base + off) (alignUp chunkLen sectorSize)
      return crcs ++ [crc32c (buf.take chunkLen) 0])
    []

def writeExtentHeaderRaw (sb : SuperBlock) (extentId : Nat) (packed : Bool)
    (chunkCrcs : List UInt32) : RecoveryM Unit := do
  let gen ← generation extentId
  let header : ExtentHeader := {
    generation := gen
    flags := if packed then extentFlagPacked else 0
    chunkSize := if packed then 0 else defaultChunkSize
    chunkCrcs := if packed then [] else chunkCrcs }
  pwriteHeader extentId header (extentOffset sb extentId)

/-- The test `full && alloc.refcount(id) == 1`; the count is read for full extents only. -/
def fullAndUnshared (sb : SuperBlock) (id : Nat) : RecoveryM Bool := do
  let live ← liveBytesOf id
  if live.toNat ≥ sb.extentCapacity then
    let holders ← refcount id
    return holders == 1
  else
    return false

def writeSealingHeader (sb : SuperBlock) (id : Nat) (exclusive : Bool) : RecoveryM Unit :=
  if exclusive then do
    let crcs ← computeExtentCrcsRaw sb id sb.extentCapacity
    writeExtentHeaderRaw sb id false crcs
  else
    writeExtentHeaderRaw sb id true []

def sealAtRecovery (sb : SuperBlock) (id : Nat) : RecoveryM Unit := do
  let exclusive ← fullAndUnshared sb id
  writeSealingHeader sb id exclusive
  markSealed id

/-- Where the next segment of an extent goes: behind the last live byte, rounded
up to a sector.  The cast to `u32` is kept. -/
def recoveredWatermark (maxEnd : Nat → Option Nat) (id : Nat) : Nat :=
  alignUp ((maxEnd id).getD 0) sectorSize % 2 ^ 32

/-- The scan of one extent: allocated, with live bytes, and without a header of its
generation. -/
def scanExtent (sb : SuperBlock) (base : Nat) (candidates : List Nat) (extentId : Nat) :
    RecoveryM (List Nat) := do
  let id := base + extentId
  let allocated ← testBit id
  if !allocated then return candidates
  let live ← liveBytesOf id
  if live == 0 then return candidates
  match ← readExtentHeaderRaw sb extentId with
  | none => return candidates ++ [extentId]
  | some header =>
    let gen ← generation id
    if header.generation == gen then return candidates
    else return candidates ++ [extentId]

def openCandidates (sb : SuperBlock) (base count : Nat) : RecoveryM (List Nat) :=
  (List.range count).foldlM (scanExtent sb base) []

/-- The first pass over one candidate: a full one is sealed, and of the others the
one with the highest watermark is kept. -/
def chooseCandidate (sb : SuperBlock) (base : Nat) (maxEnd : Nat → Option Nat)
    (resumed : Option (Nat × Nat)) (extentId : Nat) : RecoveryM (Option (Nat × Nat)) := do
  let id := base + extentId
  let me := recoveredWatermark maxEnd id
  -- The log line reads the live bytes too.
  let _ ← liveBytesOf id
  if me ≥ sb.extentCapacity then
    sealAtRecovery sb extentId
    return resumed
  else
    match resumed with
    | none => return some (id, me)
    | some (_, wm) => if me > wm then return some (id, me) else return resumed

def sealOther (sb : SuperBlock) (base : Nat) (maxEnd : Nat → Option Nat)
    (resumed : Option (Nat × Nat)) (extentId : Nat) : RecoveryM Unit :=
  let id := base + extentId
  let me := recoveredWatermark maxEnd id
  if me < sb.extentCapacity ∧ resumed ≠ some (id, me) then sealAtRecovery sb extentId
  else return ()

def resumeOpenExtent (sb : SuperBlock) (base count : Nat) (maxEnd : Nat → Option Nat) :
    RecoveryM (Option OpenExtent) := do
  let candidates ← openCandidates sb base count
  let resumed ← candidates.foldlM (chooseCandidate sb base maxEnd) none
  candidates.foldlM (fun _ extentId => sealOther sb base maxEnd resumed extentId) ()
  match resumed with
  | none => return none
  | some (id, wm) =>
    markOpen id
    let participants ← refcount id
    return some ⟨id, wm, wm, max participants.toNat 1⟩

structure Disk where
  slot : DeviceSlot
  dev : BlockDevice

/-- One device's recovery: the allocator it started from, its outcome and its end. -/
structure Recovered where
  before : Allocator
  opened : Except Error (Option OpenExtent)
  final : Recovery

/-- The devices in order, as `Engine::open` runs them; the first failure ends the run. -/
def resumeOpenExtents (maxEnd : Nat → Option Nat) (a : Allocator) : List Disk → List Recovered × Allocator
  | [] => ([], a)
  | disk :: rest =>
    match resumeOpenExtent disk.slot.sb disk.slot.base disk.slot.extentCount maxEnd
        ⟨a, disk.dev, []⟩ with
    | .error e s => ([⟨a, .error e, s⟩], s.alloc)
    | .ok opened s =>
      let (others, after) := resumeOpenExtents maxEnd s.alloc rest
      (⟨a, .ok opened, s⟩ :: others, after)

end FastS3.Engine
