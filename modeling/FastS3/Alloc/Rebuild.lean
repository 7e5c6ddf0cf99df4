import FastS3.Alloc.Runs

namespace FastS3.Alloc

open FastS3.Core Data

/-! The derived counters as recovery computes them from the stored segment lists. -/

namespace Allocator

/-- The loop over the distinct keys runs in the order of a hash map; the sums do
not depend on it. -/
def rebuildDerived (a : Allocator) (objects : List (List Segment)) : Allocator :=
  let keys := objects.flatten.map Segment.key
  let a := { a with liveBytes := fun _ => 0, refcounts := fun _ => 0, state := fun _ => .sealed }
  let a := objects.foldl (fun a segs => (seenExtents segs).foldl incRef a) a
  let a := (keys.dedup.map fun key => (key.extent, key.len)).foldl addLive a
  { a with
    shared := fun key => if keys.count key > 1 then some (keys.count key) else none }

def healExtent (a : Allocator) (id : Nat) : Allocator :=
  if a.liveBytes id > 0 ∧ a.bitmap.test id = false then
    { a with bitmap := a.bitmap.setBit id, totalAlloc := a.totalAlloc + 1 }
  else a

def healBitmap (a : Allocator) : Allocator :=
  (List.range a.n).foldl healExtent a

end Allocator

/-- `acc_scan_segments`: the highest end of a live segment in each extent. -/
def maxEnds (segs : List Segment) : Nat → Option Nat :=
  segs.foldl
    (fun ends s =>
      Function.update ends s.extentId
        (some (max ((ends s.extentId).getD 0) (s.offset + s.len))))
    fun _ => none

end FastS3.Alloc
