import FastS3.Alloc.Runs
import FastS3.Alloc.Undo
import Mathlib.Algebra.Order.Sub.Basic

namespace FastS3.Alloc

open FastS3.Core Data

/-! Transactions that commit or fail.

A transaction that does not commit leaves its draft rolled back, or forgotten.  The stored objects are
then those from before it, and the question is whether the allocator still agrees with them.
-/

inductive Ending where
  | committed
  | refused
  | failed (calls : Nat)
deriving Repr, DecidableEq

def World.transact (world : World) (calls : List DraftCall) (rollsBack : Bool) : Ending → World
  | .committed => world.commit calls
  | .refused =>
    let session := runDraft world.alloc calls
    ⟨(session.1.toAllocDraft session.2).1.rollback session.2, world.held⟩
  | .failed count =>
    let session := runDraft world.alloc (calls.take count)
    ⟨if rollsBack then session.1.rollback session.2 else session.1, world.held⟩

/-! ### Drafts that store one object

A writer notes every segment that it has filled, and the object is made of just these.
-/

inductive WriterCall where
  | allocateInRange (hint start count : Nat)
  | noteInflightSegment (seg : Segment)
deriving Repr, DecidableEq

def WriterCall.call : WriterCall → DraftCall
  | .allocateInRange hint start count => .allocateInRange hint start count
  | .noteInflightSegment seg => .noteInflightSegment seg

def written (writes : List WriterCall) : List Segment :=
  writes.filterMap fun write =>
    match write with
    | .allocateInRange _ _ _ => none
    | .noteInflightSegment seg => some seg

def storeCalls (writes : List WriterCall) : List DraftCall :=
  writes.map WriterCall.call ++ [.addObject (written writes)]

def releaseCalls (lists : List (List Segment)) : List DraftCall :=
  lists.map .releaseObject

section Store

variable (held : List (List Segment))

theorem heldAfter_append (left right : List DraftCall) :
    heldAfter held (left ++ right) = heldAfter (heldAfter held left) right :=
  List.foldl_append

theorem heldAfter_writes (writes : List WriterCall) :
    heldAfter held (writes.map WriterCall.call) = held := by
  induction writes with
  | nil => rfl
  | cons write rest ih =>
    cases write with
    | allocateInRange hint start count => exact ih
    | noteInflightSegment seg => exact ih

theorem heldAfter_store (writes : List WriterCall) :
    heldAfter held (storeCalls writes) = written writes :: held := by
  rw [storeCalls, heldAfter_append, heldAfter_writes]
  rfl

theorem coe_held_release (segs : List Segment) :
    ((DraftCall.held held (.releaseObject segs) : List (List Segment)) : Multiset (List Segment)) =
      (held : Multiset (List Segment)).erase segs := by
  change ((held.erase segs : List (List Segment)) : Multiset (List Segment)) = _
  by_cases member : segs ∈ held
  · have perm : held.Perm (segs :: held.erase segs) := List.perm_cons_erase member
    rw [Multiset.coe_eq_coe.mpr perm, ← Multiset.cons_coe, Multiset.erase_cons_head]
  · rw [List.erase_of_not_mem member, Multiset.erase_of_notMem]
    exact member

theorem heldAfter_release (held lists : List (List Segment)) :
    ((heldAfter held (releaseCalls lists) : List (List Segment)) : Multiset (List Segment)) =
      (held : Multiset (List Segment)) - (lists : Multiset (List Segment)) := by
  induction lists generalizing held with
  | nil => exact (Multiset.sub_zero _).symm
  | cons segs rest ih =>
    have first : heldAfter held (releaseCalls (segs :: rest)) =
        heldAfter (DraftCall.held held (.releaseObject segs)) (releaseCalls rest) := rfl
    rw [first, ih, coe_held_release, ← Multiset.cons_coe, Multiset.sub_cons]

end Store

end FastS3.Alloc
