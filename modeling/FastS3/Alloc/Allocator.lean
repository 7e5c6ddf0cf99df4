import FastS3.Alloc.Bitmap
import FastS3.Core.Segment
import FastS3.Data.Cells
import Mathlib.Data.List.Destutter
import Mathlib.Data.UInt

namespace FastS3.Alloc

open FastS3.Core Data

/-! The allocator state and the operations that write through a draft.

The reference and live-byte counters are 32-bit words with wrapping addition, as
`fetch_add` and `fetch_sub` compute them.  Array bounds are not modeled: every id
in use is below `n`.
-/

inductive ExtentState where
  | free
  | opened
  | sealed
deriving Repr, DecidableEq

/-- The changes of one transaction, kept by the caller until it commits. -/
structure Staged where
  alloc : List (Nat × Nat) := []
  refInc : List Nat := []
  refDec : List Nat := []
  cleared : List Nat := []
  liveInc : List (Nat × Nat) := []
  inflight : List (Nat × Nat) := []
  liveDec : List (Nat × Nat) := []
  sharedInc : List SegKey := []
  sharedDec : List SegKey := []
  refcountInc : List Nat := []
  refcountDec : List Nat := []
deriving Repr, DecidableEq

structure Allocator where
  bitmap : Bitmap
  refcounts : Nat → UInt32
  generations : Nat → Nat
  liveBytes : Nat → UInt32
  state : Nat → ExtentState
  /-- Holders of a segment; a segment without entry has one holder. -/
  shared : SegKey → Option Nat
  pinCount : Nat → Nat
  isolated : Nat → Bool
  totalAlloc : UInt64
  totalFree : UInt64
  n : Nat

/-- The ids of one `(start, count)` entry of a draft. -/
def rangeIds (range : Nat × Nat) : List Nat :=
  List.range' range.1 range.2

def Staged.extents (draft : Staged) : List Nat :=
  draft.alloc.flatMap rangeIds

/-- One step of `compress_ranges`: the id joins the last range or starts a new one. -/
def compressStep (out : List (Nat × Nat)) (id : Nat) : List (Nat × Nat) :=
  match out.getLast? with
  | some (start, count) =>
    if start + count = id then out.dropLast ++ [(start, count + 1)] else out ++ [(id, 1)]
  | none => out ++ [(id, 1)]

def compressRanges (ids : List Nat) : List (Nat × Nat) :=
  ((ids.insertionSort (· ≤ ·)).destutter (· ≠ ·)).foldl compressStep []

def seenExtents (segs : List Segment) : List Nat :=
  segs.foldl
    (fun seen s => if s.extentId ∈ seen then seen else seen ++ [s.extentId]) []

namespace Allocator

def new (n : Nat) : Allocator where
  bitmap := Bitmap.new n
  refcounts := fun _ => 0
  generations := fun _ => 0
  liveBytes := fun _ => 0
  state := fun _ => .free
  shared := fun _ => none
  pinCount := fun _ => 0
  isolated := fun _ => false
  totalAlloc := 0
  totalFree := 0
  n := n

def isPinned (a : Allocator) (id : Nat) : Bool :=
  decide (id < a.n) && decide (a.pinCount id > 0)

def isolate (a : Allocator) (id : Nat) : Allocator :=
  { a with isolated := Function.update a.isolated id true }

/-- The extent's bit is already set in `bitmap`; the counters start afresh. -/
def takeExtent (a : Allocator) (id : Nat) (bitmap : Bitmap) : Allocator :=
  { a with
    bitmap := bitmap
    refcounts := Function.update a.refcounts id 0
    generations := Function.update a.generations id (a.generations id + 1)
    totalAlloc := a.totalAlloc + 1 }

/-- Undoes `takeExtent` when a later extent of the same call is not available. -/
def giveBackExtent (a : Allocator) (id : Nat) : Allocator :=
  { a with
    bitmap := a.bitmap.clearBit id
    refcounts := Function.update a.refcounts id 0
    liveBytes := Function.update a.liveBytes id 0
    state := Function.update a.state id .free
    totalAlloc := a.totalAlloc - 1 }

/-- The loop of `allocate`: the extents taken until `count` are found or none is
left.  Every round sets one more bit, so `fuel` rounds are enough once `fuel`
exceeds the number of extents. -/
def allocateLoop : Nat → Allocator → Nat → Nat → List Nat → Allocator × List Nat
  | 0, a, _, _, out => (a, out)
  | fuel + 1, a, hint, count, out =>
    if out.length < count then
      match a.bitmap.allocOne hint with
      | none => (a, out)
      | some (id, bitmap) =>
        if a.isPinned id then
          allocateLoop fuel ({ a with bitmap := bitmap }.isolate id) (id + 1) count out
        else
          allocateLoop fuel (a.takeExtent id bitmap) (id + 1) count (out ++ [id])
    else (a, out)

/-- `hint` is the cursor of the calling thread. -/
def allocate (a : Allocator) (draft : Staged) (hint count : Nat) :
    Allocator × Staged × Except Error (List Nat) :=
  let (a, out) := allocateLoop (a.n + 1) a hint count []
  if out.length < count then (out.foldl giveBackExtent a, draft, .error .noSpace)
  else (a, { draft with alloc := draft.alloc ++ compressRanges out }, .ok out)

def allocateInRangeLoop : Nat → Allocator → Nat → Nat → Nat → Allocator × Option Nat
  | 0, a, _, _, _ => (a, none)
  | fuel + 1, a, hint, start, count =>
    match a.bitmap.allocOneInRange hint start count with
    | none => (a, none)
    | some (id, bitmap) =>
      if a.isPinned id then
        allocateInRangeLoop fuel ({ a with bitmap := bitmap }.isolate id) (id + 1) start count
      else (a.takeExtent id bitmap, some id)

def allocateInRange (a : Allocator) (draft : Staged) (hint start count : Nat) :
    Allocator × Staged × Option Nat :=
  match allocateInRangeLoop (a.n + 1) a hint start count with
  | (a, none) => (a, draft, none)
  | (a, some id) => (a, { draft with alloc := draft.alloc ++ [(id, 1)] }, some id)

def markOpen (a : Allocator) (id : Nat) : Allocator :=
  { a with state := Function.update a.state id .opened }

def markSealed (a : Allocator) (id : Nat) : Allocator :=
  { a with state := Function.update a.state id .sealed }

def restoreOccupancy (a : Allocator) (id live refcount : Nat) : Allocator :=
  { a with
    liveBytes := Function.update a.liveBytes id (UInt32.ofNat live)
    refcounts := Function.update a.refcounts id (UInt32.ofNat refcount) }

def addLive (a : Allocator) (change : Nat × Nat) : Allocator :=
  { a with liveBytes := bump a.liveBytes change.1 (UInt32.ofNat change.2) }

def subLive (a : Allocator) (change : Nat × Nat) : Allocator :=
  { a with liveBytes := bump a.liveBytes change.1 (-UInt32.ofNat change.2) }

def incRef (a : Allocator) (id : Nat) : Allocator :=
  { a with refcounts := bump a.refcounts id 1 }

def decRef (a : Allocator) (id : Nat) : Allocator :=
  { a with refcounts := bump a.refcounts id (-1) }

/-- The segment loop of `add_object`.  `preCounted` holds how many segments of an
extent and length are still taken for accounted. -/
def addSegments : (Nat × Nat → Nat) → List Segment → Allocator × Staged → Allocator × Staged
  | _, [], session => session
  | preCounted, s :: rest, (a, draft) =>
    let key := (s.extentId, s.len)
    if preCounted key > 0 then
      addSegments (Function.update preCounted key (preCounted key - 1)) rest (a, draft)
    else
      addSegments preCounted rest
        (a.addLive key, { draft with liveInc := draft.liveInc ++ [key] })

def noteRefs (session : Allocator × Staged) (ids : List Nat) : Allocator × Staged :=
  ids.foldl
    (fun session id =>
      (session.1.incRef id, { session.2 with refcountInc := session.2.refcountInc ++ [id] }))
    session

def addObject (a : Allocator) (draft : Staged) (segs : List Segment) : Allocator × Staged :=
  if segs = [] then (a, draft)
  else
    noteRefs (addSegments (fun key => draft.inflight.count key) segs (a, draft)) (seenExtents segs)

def noteInflightSegment (a : Allocator) (draft : Staged) (seg : Segment) : Allocator × Staged :=
  let key := (seg.extentId, seg.len)
  (a.addLive key,
    { draft with liveInc := draft.liveInc ++ [key], inflight := draft.inflight ++ [key] })

def shareSegment (session : Allocator × Staged) (s : Segment) : Allocator × Staged :=
  ({ session.1 with
      shared := Function.update session.1.shared s.key
        (some ((session.1.shared s.key).getD 1 + 1)) },
    { session.2 with sharedInc := session.2.sharedInc ++ [s.key] })

def shareObject (a : Allocator) (draft : Staged) (segs : List Segment) : Allocator × Staged :=
  if segs = [] then (a, draft)
  else noteRefs (segs.foldl shareSegment (a, draft)) (seenExtents segs)

def decLive (session : Allocator × Staged) (id len : Nat) : Allocator × Staged :=
  let (a, draft) := session
  let prev := a.liveBytes id
  let amount := UInt32.ofNat len
  if prev < amount then (a, draft)
  else
    let a := { a with liveBytes := Function.update a.liveBytes id (prev - amount) }
    if prev > amount then (a, { draft with liveDec := draft.liveDec ++ [(id, len)] })
    else
      (a,
        { draft with
          cleared := draft.cleared ++ [id]
          refDec := draft.refDec ++ [id]
          liveDec := draft.liveDec ++ [(id, len)] })

def releaseSegment (session : Allocator × Staged) (s : Segment) : Allocator × Staged :=
  let (a, draft) := session
  match a.shared s.key with
  | some holders =>
    if holders > 1 then
      ({ a with shared := Function.update a.shared s.key (some (holders - 1)) },
        { draft with sharedDec := draft.sharedDec ++ [s.key] })
    else
      decLive
        ({ a with shared := Function.update a.shared s.key none },
          { draft with sharedDec := draft.sharedDec ++ [s.key] })
        s.extentId s.len
  | none => decLive (a, draft) s.extentId s.len

def dropRefs (session : Allocator × Staged) (ids : List Nat) : Allocator × Staged :=
  ids.foldl
    (fun session id =>
      if session.1.refcounts id = 0 then session
      else (session.1.decRef id, { session.2 with refcountDec := session.2.refcountDec ++ [id] }))
    session

def releaseObject (a : Allocator) (draft : Staged) (segs : List Segment) : Allocator × Staged :=
  dropRefs (segs.foldl releaseSegment (a, draft)) (seenExtents segs)

def settleCleared (a : Allocator) (id : Nat) : Allocator :=
  if a.liveBytes id > 0 then a
  else if a.isPinned id then a.isolate id
  else
    let a := if a.bitmap.test id then
        { a with bitmap := a.bitmap.clearBit id, totalFree := a.totalFree + 1 }
      else a
    { a with state := Function.update a.state id .free }

def toAllocDraft (a : Allocator) (staged : Staged) : Allocator × AllocDraft :=
  (staged.cleared.foldl settleCleared a, ⟨staged.alloc, staged.refInc, staged.refDec⟩)

def restoreCleared (a : Allocator) (id : Nat) : Allocator :=
  if a.bitmap.test id then a
  else { a with bitmap := a.bitmap.setBit id, totalFree := a.totalFree - 1 }

def undoAlloc (a : Allocator) (id : Nat) : Allocator :=
  { a with
    bitmap := a.bitmap.clearBit id
    state := Function.update a.state id .free
    totalAlloc := a.totalAlloc - 1 }

def undoShare (shared : SegKey → Option Nat) (key : SegKey) : SegKey → Option Nat :=
  match shared key with
  | some holders =>
    if holders > 2 then Function.update shared key (some (holders - 1))
    else Function.update shared key none
  | none => shared

def undoRelease (shared : SegKey → Option Nat) (key : SegKey) : SegKey → Option Nat :=
  match shared key with
  | some holders => Function.update shared key (some (holders + 1))
  | none => Function.update shared key (some 1)

def rollback (a : Allocator) (draft : Staged) : Allocator :=
  let a := draft.cleared.foldl restoreCleared a
  let a := (draft.alloc.flatMap rangeIds).foldl undoAlloc a
  let a := draft.liveDec.foldl addLive a
  let a := draft.liveInc.foldl subLive a
  let a := { a with shared := draft.sharedInc.foldl undoShare a.shared }
  let a := { a with shared := draft.sharedDec.foldl undoRelease a.shared }
  let a := draft.refcountDec.foldl incRef a
  draft.refcountInc.foldl decRef a

def holders (a : Allocator) (key : SegKey) : Nat :=
  (a.shared key).getD 1

end Allocator

end FastS3.Alloc
