import FastS3.Alloc.Allocator
import FastS3.Core.ExtentHeader
import FastS3.Core.Object
import FastS3.Device.Block
import FastS3.Engine.Slots
import Mathlib.Data.List.AList

namespace FastS3.Engine

open Alloc FastS3.Core Device

/-! The engine: the device table, the open extents, the allocator and the records.

Programs of the engine keep their state when they fail, as methods on a mutable
receiver do.  What the model does not compute is taken from the state: the outcome
of each call to a device or to the metadata store, and the choices of the weighted
device rotation and of the thread-local allocation cursor.
-/

inductive VersionSlot where
  | single
  | version (vk : Vk)
deriving Repr, DecidableEq

structure ObjectKey where
  bucket : String
  key : String
  slot : VersionSlot
deriving Repr, DecidableEq

structure PartKey where
  uploadId : String
  partNo : Nat
deriving Repr, DecidableEq

structure SessionSseS3 where
  kekId : Nat
  wrappedDek : Bytes
deriving Repr, DecidableEq

structure SessionSseKms where
  keyName : String
  wrappedDek : String
  contextSuffix : String
  bucketKeyEnabled : Option Bool
deriving Repr, DecidableEq

structure MultipartSession where
  bucket : String
  key : String
  completed : Bool
  sseKeyMd5 : Option String
  sseS3 : Option SessionSseS3
  sseKms : Option SessionSseKms
  requestedStorageClass : Option String
deriving Repr, DecidableEq

structure MetaStore where
  buckets : AList fun _ : String => BucketMeta
  objects : AList fun _ : ObjectKey => ObjectMeta
  parts : AList fun _ : PartKey => PartMeta
  sessions : AList fun _ : String => MultipartSession
  /-- One entry for each call to come; calls past the end of the list succeed. -/
  faults : List (Option Error)

/-- The tail of a pool device that new segments are appended to. -/
structure OpenExtent where
  extentId : Nat
  watermark : Nat
  committedEnd : Nat
  participants : Nat
deriving Repr, DecidableEq

structure EngineState where
  devices : List DeviceSlot
  disks : List BlockDevice
  mainSb : SuperBlock
  openExtents : List (Option OpenExtent)
  curDevice : Nat
  alloc : Allocator
  /-- The draft of the running operation; the source passes it along. -/
  draft : Staged
  store : MetaStore
  choices : List Nat
  chunkSize : Nat
  etagMode : EtagMode
  compressionEnabled : Bool
  compressionLevel : Nat
  smallObjectLimit : Nat
  verifyReads : Bool
  readOnly : Bool
  /-- `sync_mode = full`. -/
  syncFull : Bool

namespace EngineState

def curOpen (e : EngineState) : Option OpenExtent :=
  (e.openExtents[e.curDevice]?).join

def setOpen (e : EngineState) (di : Nat) (oe : Option OpenExtent) : EngineState :=
  { e with openExtents := e.openExtents.set di oe }

def setDisk (e : EngineState) (di : Nat) (disk : BlockDevice) : EngineState :=
  { e with disks := e.disks.set di disk }

end EngineState

abbrev EngineM := EStateM Error EngineState

def extentOffset (sb : SuperBlock) (extentId : Nat) : Nat :=
  sb.dataStart + extentId * sb.extentSize

namespace DeviceSlot

def dataOffset (slot : DeviceSlot) (localExtent : Nat) : Nat :=
  extentOffset slot.sb localExtent + extentHeaderSize

def headerOffset (slot : DeviceSlot) (localExtent : Nat) : Nat :=
  extentOffset slot.sb localExtent

def extentCapacity (slot : DeviceSlot) : Nat :=
  slot.sb.extentCapacity

end DeviceSlot

def draw : EngineM Nat :=
  modifyGet fun e => (e.choices.headD 0, { e with choices := e.choices.tail })

def metaCall : EngineM Unit := fun e =>
  let rest := { e with store := { e.store with faults := e.store.faults.tail } }
  match e.store.faults.headD none with
  | none => .ok () rest
  | some fault => .error fault rest

def expect {α : Type} (message : String) : Option α → EngineM α
  | some value => pure value
  | none => throw (.metaError message)

def missingExtent (extentId : Nat) : Error :=
  .corrupt (s!"extent {extentId} references a device not present in the " ++
    "pool (degraded mode: disk missing?)")

def locateExtent (extentId : Nat) (missing : Error) : EngineM (Nat × Nat) := fun e =>
  match resolveExtent e.devices extentId with
  | some found => .ok found e
  | none => .error missing e

def slotAt (di : Nat) : EngineM DeviceSlot := do
  expect "device index" (← get).devices[di]?

def extentDataOffset (extentId : Nat) : EngineM Nat := do
  let (di, localExtent) ← locateExtent extentId (missingExtent extentId)
  let slot ← slotAt di
  return slot.dataOffset localExtent

def extentHeaderOffset (extentId : Nat) : EngineM Nat := do
  let (di, localExtent) ← locateExtent extentId (missingExtent extentId)
  let slot ← slotAt di
  return slot.headerOffset localExtent

/-- `write_all` on device `di`: the write may fail and then leave a prefix behind. -/
def writeAll (di : Nat) (data : Bytes) (off : Nat) : EngineM Unit := fun e =>
  match e.disks[di]? with
  | none => .error .io e
  | some disk =>
    match disk.nextFault with
    | (none, disk) => .ok () (e.setDisk di (disk.store data off))
    | (some stored, disk) =>
      .error .io (e.setDisk di (disk.store (data.take stored) off))

/-- `read_exact` on device `di`. -/
def readExact (di : Nat) (off len : Nat) : EngineM Bytes := fun e =>
  match e.disks[di]? with
  | none => .error .io e
  | some disk =>
    match disk.nextFault with
    | (none, disk) => .ok (disk.read off len) (e.setDisk di disk)
    | (some _, disk) => .error .io (e.setDisk di disk)

/-- A flush of device `di` to stable storage. -/
def fsync (di : Nat) : EngineM Unit := fun e =>
  match e.disks[di]? with
  | none => .error .io e
  | some disk =>
    match disk.nextFault with
    | (none, disk) => .ok () (e.setDisk di disk)
    | (some _, disk) => .error .io (e.setDisk di disk)

def randomBytes : Nat → EngineM Bytes
  | 0 => return []
  | count + 1 => do
      let byte ← draw
      return UInt8.ofNat byte :: (← randomBytes count)

def smallEngine (opened : Option OpenExtent) : EngineState where
  devices := [⟨smallDisk 1, 0, 15, 1⟩]
  disks := [⟨fun _ => 0, []⟩]
  mainSb := smallDisk 1
  openExtents := [opened]
  curDevice := 0
  alloc := { Allocator.new 15 with bitmap := (Bitmap.new 15).setBit 0 }
  draft := {}
  store := ⟨∅, ∅, ∅, ∅, []⟩
  choices := []
  chunkSize := defaultChunkSize
  etagMode := .md5
  compressionEnabled := false
  compressionLevel := 1
  smallObjectLimit := 32768
  verifyReads := true
  readOnly := false
  syncFull := false

end FastS3.Engine
