import FastS3.Alloc.Accounting

namespace FastS3.Alloc

open FastS3.Core Data

/-! Runs of committed transactions.

A world pairs the allocator with the segment lists of the stored objects.  A
transaction may use the allocator as its documentation allows, and a run takes
such transactions one after another from an empty pool.
-/

structure World where
  alloc : Allocator
  held : List (List Segment)

def heldKeys (held : List (List Segment)) : Multiset SegKey :=
  segKeys held.flatten

def noteKey (key : SegKey) : Nat × Nat :=
  (key.extent, key.len)

namespace DraftCall

def held (held : List (List Segment)) : DraftCall → List (List Segment)
  | .allocate _ _ => held
  | .allocateInRange _ _ _ => held
  | .noteInflightSegment _ => held
  | .addObject segs => segs :: held
  | .shareObject segs => segs :: held
  | .releaseObject segs => held.erase segs

def notes (notes : List SegKey) : DraftCall → List SegKey
  | .allocate _ _ => notes
  | .allocateInRange _ _ _ => notes
  | .noteInflightSegment seg => notes ++ [seg.key]
  | .addObject _ => notes
  | .shareObject _ => notes
  | .releaseObject _ => notes

/-- What a caller may ask for: windows inside the pool, noted and added segments
inside allocated extents and apart from each other, added segments that nobody
holds, shared segments that someone holds, and releases of a stored object. -/
def Allowed (capacity : Nat) (a : Allocator) (held : List (List Segment)) (notes : List SegKey) :
    DraftCall → Prop
  | .allocate _ _ => True
  | .allocateInRange _ start count => start + count ≤ a.n
  | .noteInflightSegment seg =>
    a.bitmap.test seg.extentId = true ∧ seg.offset + seg.len ≤ capacity ∧
      ∀ key ∈ notes, key ≠ seg.key ∧ key.Disjoint seg.key
  | .addObject segs =>
    (∀ s ∈ segs, a.bitmap.test s.extentId = true ∧ s.offset + s.len ≤ capacity) ∧
      (segs.map Segment.key).Nodup ∧
      (∀ left ∈ segs, ∀ right ∈ segs, left.key ≠ right.key → left.key.Disjoint right.key) ∧
      ∀ s ∈ segs, ∀ key ∈ held.flatten.map Segment.key, s.key ≠ key ∧ s.key.Disjoint key
  | .shareObject segs => ∀ s ∈ segs, s.key ∈ held.flatten.map Segment.key
  | .releaseObject segs => segs ∈ held

instance (capacity : Nat) (a : Allocator) (held : List (List Segment)) (notes : List SegKey)
    (call : DraftCall) : Decidable (call.Allowed capacity a held notes) :=
  match call with
  | .allocate _ _ => inferInstanceAs (Decidable True)
  | .allocateInRange _ start count => inferInstanceAs (Decidable (start + count ≤ a.n))
  | .noteInflightSegment seg => inferInstanceAs (Decidable
      (a.bitmap.test seg.extentId = true ∧ seg.offset + seg.len ≤ capacity ∧
        ∀ key ∈ notes, key ≠ seg.key ∧ key.Disjoint seg.key))
  | .addObject segs => inferInstanceAs (Decidable
      ((∀ s ∈ segs, a.bitmap.test s.extentId = true ∧ s.offset + s.len ≤ capacity) ∧
        (segs.map Segment.key).Nodup ∧
        (∀ left ∈ segs, ∀ right ∈ segs, left.key ≠ right.key → left.key.Disjoint right.key) ∧
        ∀ s ∈ segs, ∀ key ∈ held.flatten.map Segment.key, s.key ≠ key ∧ s.key.Disjoint key))
  | .shareObject segs => inferInstanceAs (Decidable
      (∀ s ∈ segs, s.key ∈ held.flatten.map Segment.key))
  | .releaseObject segs => inferInstanceAs (Decidable (segs ∈ held))

/-- The bytes accounted ahead after a call, when the draft has noted `notes`. -/
def pending (notes : List SegKey) (pending : Multiset (Nat × Nat)) :
    DraftCall → Multiset (Nat × Nat)
  | .allocate _ _ => pending
  | .allocateInRange _ _ _ => pending
  | .noteInflightSegment seg => (seg.extentId, seg.len) ::ₘ pending
  | .addObject segs =>
    pending - (covered (fun key => (notes.map noteKey).count key) segs : Multiset (Nat × Nat))
  | .shareObject _ => pending
  | .releaseObject _ => pending

/-- `add_object` takes no more segments for accounted than are still pending. -/
def Covers (notes : List SegKey) (pending : Multiset (Nat × Nat)) : DraftCall → Prop
  | .addObject segs =>
    (covered (fun key => (notes.map noteKey).count key) segs : Multiset (Nat × Nat)) ≤ pending
  | .allocate _ _ => True
  | .allocateInRange _ _ _ => True
  | .noteInflightSegment _ => True
  | .shareObject _ => True
  | .releaseObject _ => True

end DraftCall

def AllAllowed (capacity : Nat) :
    Allocator × Staged → List (List Segment) → List SegKey → List DraftCall → Prop
  | _, _, _, [] => True
  | session, held, notes, call :: rest =>
    call.Allowed capacity session.1 held notes ∧
      AllAllowed capacity (call.run session) (call.held held) (call.notes notes) rest

/-- Every noted segment is taken for accounted exactly once: no `add_object`
takes more than are pending, and none is left at the end. -/
def NotesSettled : List SegKey → Multiset (Nat × Nat) → List DraftCall → Prop
  | _, pending, [] => pending = 0
  | notes, pending, call :: rest =>
    call.Covers notes pending ∧ NotesSettled (call.notes notes) (call.pending notes pending) rest

def heldAfter (held : List (List Segment)) (calls : List DraftCall) : List (List Segment) :=
  calls.foldl DraftCall.held held

def World.commit (world : World) (calls : List DraftCall) : World :=
  ⟨runTransaction world.alloc calls, heldAfter world.held calls⟩

/-- The worlds reached from an empty pool of `n` extents by transactions whose
calls are allowed and whose noted segments are settled. -/
inductive Reached (capacity n : Nat) : World → Prop where
  | start : Reached capacity n ⟨Allocator.new n, []⟩
  | commit {world : World} {calls : List DraftCall} (reached : Reached capacity n world)
      (allowed : AllAllowed capacity (world.alloc, {}) world.held [] calls)
      (settled : NotesSettled [] 0 calls) : Reached capacity n (world.commit calls)

structure Accounted (world : World) : Prop where
  live : ∀ e, (world.alloc.liveBytes e).toNat = heldBytes (heldKeys world.held) e
  holders : ∀ key ∈ heldKeys world.held, world.alloc.holders key = (heldKeys world.held).count key
  orphan : ∀ key, key ∉ heldKeys world.held → world.alloc.shared key = none
  bits : ∀ key ∈ heldKeys world.held, 0 < key.len → world.alloc.bitmap.test key.extent = true

/-- An extent that held data when some part of the transaction was done, and
holds none at its end, has been freed. -/
def LostExtentsFreed (world : World) (calls : List DraftCall) : Prop :=
  ∀ before rest e, calls = before ++ rest →
    (∃ key ∈ heldKeys (heldAfter world.held before), key.extent = e ∧ 0 < key.len) →
    (∀ key ∈ heldKeys (heldAfter world.held calls), key.extent = e → key.len = 0) →
    (world.commit calls).alloc.bitmap.test e = false

section Draft

/-- The relation between a session and its ghost state inside a transaction. -/
structure DraftState (capacity : Nat) (held : List (List Segment)) (notes : List SegKey)
    (pending : Multiset (Nat × Nat)) (session : Allocator × Staged) : Prop where
  inDraft : InDraft capacity (heldKeys held) pending session.1
  inflight : session.2.inflight = notes.map noteKey
  subset : pending ≤ (notes.map noteKey : List (Nat × Nat))
  nodup : notes.Nodup
  disjoint : ∀ left ∈ notes, ∀ right ∈ notes, left ≠ right → left.Disjoint right
  inside : ∀ key ∈ notes, key.offset + key.len ≤ capacity

variable {capacity : Nat} {held : List (List Segment)} {notes : List SegKey}
  {pending : Multiset (Nat × Nat)} {a : Allocator} {draft : Staged}

theorem pendingBytes_mono {few many : Multiset (Nat × Nat)} (subset : few ≤ many) (e : Nat) :
    pendingBytes few e ≤ pendingBytes many e := by
  rw [← Multiset.sub_add_cancel subset, pendingBytes_add]
  exact Nat.le_add_left _ _

theorem pendingBytes_notes_le (nodup : notes.Nodup)
    (disjoint : ∀ left ∈ notes, ∀ right ∈ notes, left ≠ right → left.Disjoint right)
    (inside : ∀ key ∈ notes, key.offset + key.len ≤ capacity) (e : Nat) :
    pendingBytes (notes.map noteKey : List (Nat × Nat)) e ≤ capacity := by
  have same : pendingBytes (notes.map noteKey : List (Nat × Nat)) e = heldBytes (notes : Multiset SegKey) e := by
    clear disjoint inside
    induction notes with
    | nil => rfl
    | cons key rest ih =>
      rw [List.nodup_cons] at nodup
      rw [List.map_cons, ← Multiset.cons_coe, pendingBytes_cons, ih nodup.2, ← Multiset.cons_coe,
        heldBytes, heldBytes, distinctSum_cons_of_notMem (by simpa using nodup.1)]
      rfl
  rw [same]
  exact heldBytes_le (by simpa using disjoint) (by simpa using inside) e

theorem heldKeys_cons (segs : List Segment) (held : List (List Segment)) :
    heldKeys (segs :: held) = segKeys segs + heldKeys held := by
  simp [heldKeys, segKeys]

theorem heldKeys_erase {segs : List Segment} (member : segs ∈ held) :
    heldKeys held = segKeys segs + heldKeys (held.erase segs) := by
  rw [← heldKeys_cons]
  have perm : held.Perm (segs :: held.erase segs) := List.perm_cons_erase member
  have flat := perm.flatten
  simp only [heldKeys, segKeys]
  exact Multiset.coe_eq_coe.mpr (flat.map Segment.key)

theorem mem_heldKeys {key : SegKey} :
    key ∈ heldKeys held ↔ key ∈ held.flatten.map Segment.key := by
  simp [heldKeys, segKeys]

variable {e : Nat} {session : Allocator × Staged}

theorem Noticed.grows {keys keys' : Multiset SegKey} {pending' : Multiset (Nat × Nat)}
    {after : Allocator} {log : Staged} (noticed : Noticed a draft e)
    (before : InDraft capacity keys pending a) (now : InDraft capacity keys' pending' after)
    (small : capacity ≤ 16777216)
    (grows : heldBytes keys e + pendingBytes pending e ≤ heldBytes keys' e + pendingBytes pending' e)
    (cleared : log.cleared = draft.cleared) : Noticed after log e := by
  rcases noticed with nonzero | recorded
  · left
    rw [Ne, before.live_eq_zero_iff small] at nonzero
    rw [Ne, now.live_eq_zero_iff small]
    omega
  · right
    rw [cleared]
    exact recorded

/-- A call keeps the draft balanced and forgets no extent that was noticed. -/
def Balanced (capacity : Nat) (held : List (List Segment)) (notes : List SegKey)
    (pending : Multiset (Nat × Nat)) (session : Allocator × Staged) (call : DraftCall) : Prop :=
  DraftState capacity (call.held held) (call.notes notes) (call.pending notes pending)
      (call.run session) ∧
    ∀ e, Noticed session.1 session.2 e → Noticed (call.run session).1 (call.run session).2 e

section Calls

variable (state : DraftState capacity held notes pending (a, draft)) (small : capacity ≤ 16777216)
  {segs : List Segment}

include state small

theorem DraftState.note {seg : Segment}
    (allowed : (DraftCall.noteInflightSegment seg).Allowed capacity a held notes) :
    Balanced capacity held notes pending (a, draft) (.noteInflightSegment seg) := by
  have inDraft := state.inDraft
  have inflight : draft.inflight = notes.map noteKey := state.inflight
  obtain ⟨allocated, inside, apart⟩ := allowed
  have nodup : (notes ++ [seg.key]).Nodup := by
    rw [List.nodup_append]
    refine ⟨state.nodup, by simp, ?_⟩
    intro key member other last
    rw [List.mem_singleton] at last
    rw [last]
    exact (apart key member).1
  have disjoint : ∀ left ∈ notes ++ [seg.key], ∀ right ∈ notes ++ [seg.key],
      left ≠ right → left.Disjoint right := by
    intro left leftMember right rightMember different
    rw [List.mem_append, List.mem_singleton] at leftMember rightMember
    rcases leftMember with leftBefore | rfl
    · rcases rightMember with rightBefore | rfl
      · exact state.disjoint left leftBefore right rightBefore different
      · exact (apart left leftBefore).2
    · rcases rightMember with rightBefore | rfl
      · exact (apart right rightBefore).2.symm
      · exact absurd rfl different
  have insides : ∀ key ∈ notes ++ [seg.key], key.offset + key.len ≤ capacity := by
    intro key member
    rw [List.mem_append, List.mem_singleton] at member
    rcases member with before | rfl
    · exact state.inside key before
    · exact inside
  have subset : (seg.extentId, seg.len) ::ₘ pending ≤
      ((notes ++ [seg.key]).map noteKey : List (Nat × Nat)) := by
    have grown := Multiset.cons_le_cons (seg.extentId, seg.len) state.subset
    refine grown.trans (le_of_eq ?_)
    rw [Multiset.cons_coe, List.map_append, Multiset.coe_eq_coe]
    exact (List.perm_append_singleton _ _).symm
  have bound : ∀ e, pendingBytes ((seg.extentId, seg.len) ::ₘ pending) e ≤ capacity :=
    fun e => (pendingBytes_mono subset e).trans (pendingBytes_notes_le nodup disjoint insides e)
  have next := inDraft.noteInflightSegment draft allocated bound
  refine ⟨⟨next, ?_, subset, nodup, disjoint, insides⟩, ?_⟩
  · simp [DraftCall.run, Allocator.noteInflightSegment, inflight, DraftCall.notes, noteKey,
      Segment.key]
  · intro e noticed
    refine noticed.grows inDraft next small ?_ rfl
    rw [pendingBytes_cons]
    omega

theorem DraftState.add (allowed : (DraftCall.addObject segs).Allowed capacity a held notes)
    (covers : (DraftCall.addObject segs).Covers notes pending) :
    Balanced capacity held notes pending (a, draft) (.addObject segs) := by
  have inDraft := state.inDraft
  have inflight : draft.inflight = notes.map noteKey := state.inflight
  obtain ⟨placed, distinct, apart, fresh⟩ := allowed
  have unheld : ∀ s ∈ segs, s.key ∉ heldKeys held ∧
      ∀ key ∈ heldKeys held, s.key.Disjoint key := by
    intro s member
    refine ⟨?_, fun key known => (fresh s member key (mem_heldKeys.mp known)).2⟩
    intro known
    exact (fresh s member s.key (mem_heldKeys.mp known)).1 rfl
  have balanced : (covered (fun key => draft.inflight.count key) segs : Multiset (Nat × Nat)) ≤
      pending := by
    rw [inflight]
    exact covers
  have next := inDraft.addObject (fun s member => (placed s member).1)
    (fun s member => (placed s member).2) distinct apart unheld balanced
  have log : (a.addObject draft segs).2.inflight = draft.inflight ∧
      (a.addObject draft segs).2.cleared = draft.cleared := by
    unfold Allocator.addObject
    split
    · exact ⟨rfl, rfl⟩
    · rw [Allocator.addSegments_eq, Allocator.noteRefs_eq]
      exact ⟨rfl, rfl⟩
  have grows := fun e => bytes_addObject distinct (fun s member => (unheld s member).1) balanced e
  rw [inflight] at next grows
  simp only [Balanced, DraftCall.run, DraftCall.held, DraftCall.notes, DraftCall.pending]
  refine ⟨⟨?_, log.1.trans inflight, ?_, state.nodup, state.disjoint, state.inside⟩, ?_⟩
  · rw [heldKeys_cons]
    exact next
  · exact (Multiset.sub_le_self _ _).trans state.subset
  · intro e noticed
    refine noticed.grows inDraft next small ?_ log.2
    rw [grows e]
    omega

theorem DraftState.share (allowed : (DraftCall.shareObject segs).Allowed capacity a held notes) :
    Balanced capacity held notes pending (a, draft) (.shareObject segs) := by
  have inDraft := state.inDraft
  have inflight : draft.inflight = notes.map noteKey := state.inflight
  have shared : ∀ s ∈ segs, s.key ∈ heldKeys held :=
    fun s member => mem_heldKeys.mpr (allowed s member)
  have next := inDraft.shareObject shared draft
  have log : (a.shareObject draft segs).2.inflight = draft.inflight ∧
      (a.shareObject draft segs).2.cleared = draft.cleared := by
    unfold Allocator.shareObject
    split
    · exact ⟨rfl, rfl⟩
    · rw [Allocator.shareSegments_eq, Allocator.noteRefs_eq]
      exact ⟨rfl, rfl⟩
  simp only [Balanced, DraftCall.run, DraftCall.held, DraftCall.notes, DraftCall.pending]
  refine ⟨⟨?_, log.1.trans inflight, state.subset, state.nodup, state.disjoint, state.inside⟩, ?_⟩
  · rw [heldKeys_cons]
    exact next
  · intro e noticed
    refine noticed.grows inDraft next small ?_ log.2
    rw [heldBytes_add_held shared]

theorem DraftState.release (allowed : (DraftCall.releaseObject segs).Allowed capacity a held notes) :
    Balanced capacity held notes pending (a, draft) (.releaseObject segs) := by
  have inDraft := state.inDraft
  have inflight : draft.inflight = notes.map noteKey := state.inflight
  have split : InDraft capacity (segKeys segs + heldKeys (held.erase segs)) pending a := by
    rw [← heldKeys_erase allowed]
    exact inDraft
  obtain ⟨next, noticed⟩ := split.releaseObject small draft
  have log : (a.releaseObject draft segs).2.inflight = draft.inflight := by
    unfold Allocator.releaseObject
    have frame := (Allocator.releaseSegments_frame a draft segs).inflight
    revert frame
    generalize segs.foldl Allocator.releaseSegment (a, draft) = middle
    intro frame
    obtain ⟨dropped, result⟩ := Allocator.dropRefs_eq middle.1 middle.2 (seenExtents segs)
    rw [result]
    exact frame
  simp only [Balanced, DraftCall.run, DraftCall.held, DraftCall.notes, DraftCall.pending]
  exact ⟨⟨next, log.trans inflight, state.subset, state.nodup, state.disjoint, state.inside⟩,
    noticed⟩

end Calls

theorem DraftState.call (state : DraftState capacity held notes pending (a, draft))
    (small : capacity ≤ 16777216) {call : DraftCall} (allowed : call.Allowed capacity a held notes)
    (covers : call.Covers notes pending) : Balanced capacity held notes pending (a, draft) call := by
  have inDraft := state.inDraft
  have inflight := state.inflight
  cases call with
  | allocate hint count =>
    have next := inDraft.allocate small draft hint count
    obtain ⟨middle, taken, parked, _, _, ⟨_, result⟩ | ⟨_, back, _, result⟩⟩ :=
      a.allocate_cases draft hint count
    all_goals
      simp only [Balanced, DraftCall.run, result] at next ⊢
      exact ⟨⟨next, inflight, state.subset, state.nodup, state.disjoint, state.inside⟩,
        fun e noticed => noticed.grows inDraft next small (Nat.le_refl _) rfl⟩
  | allocateInRange hint start count =>
    have next := inDraft.allocateInRange draft hint start count
    obtain ⟨back, taken, parked, _, _, result⟩ := a.allocateInRange_cases draft hint start count
    simp only [Balanced, DraftCall.run, result] at next ⊢
    exact ⟨⟨next, inflight, state.subset, state.nodup, state.disjoint, state.inside⟩,
      fun e noticed => noticed.grows inDraft next small (Nat.le_refl _) rfl⟩
  | noteInflightSegment seg => exact state.note small allowed
  | addObject segs => exact state.add small allowed covers
  | shareObject segs => exact state.share small allowed
  | releaseObject segs => exact state.release small allowed

theorem DraftState.calls {calls : List DraftCall}
    (state : DraftState capacity held notes pending session) (small : capacity ≤ 16777216)
    (allowed : AllAllowed capacity session held notes calls)
    (settled : NotesSettled notes pending calls) :
    (∃ last, DraftState capacity (heldAfter held calls) last 0 (calls.foldl DraftCall.run session)) ∧
      ∀ e, Noticed session.1 session.2 e →
        Noticed (calls.foldl DraftCall.run session).1 (calls.foldl DraftCall.run session).2 e := by
  induction calls generalizing held notes pending session with
  | nil =>
    have none : pending = 0 := settled
    subst none
    exact ⟨⟨notes, state⟩, fun e noticed => noticed⟩
  | cons call rest ih =>
    obtain ⟨here, later⟩ := allowed
    obtain ⟨covers, balanced⟩ := settled
    obtain ⟨next, kept⟩ := state.call small here covers
    obtain ⟨finished, noticed⟩ := ih next later balanced
    exact ⟨finished, fun e before => noticed e (kept e before)⟩

theorem DraftState.noticed (state : DraftState capacity held notes pending session)
    (small : capacity ≤ 16777216) (inUse : ∃ key ∈ heldKeys held, key.extent = e ∧ 0 < key.len) :
    Noticed session.1 session.2 e := by
  left
  rw [Ne, state.inDraft.live_eq_zero_iff small]
  have positive := (heldBytes_pos_iff e).mpr inUse
  omega

/-- An extent that held a byte at some point of the transaction is in use or
recorded as empty at its end. -/
theorem DraftState.noticed_of_held_before {before rest : List DraftCall}
    (state : DraftState capacity held notes pending session) (small : capacity ≤ 16777216)
    (allowed : AllAllowed capacity session held notes (before ++ rest))
    (settled : NotesSettled notes pending (before ++ rest))
    (inUse : ∃ key ∈ heldKeys (heldAfter held before), key.extent = e ∧ 0 < key.len) :
    Noticed ((before ++ rest).foldl DraftCall.run session).1
      ((before ++ rest).foldl DraftCall.run session).2 e := by
  induction before generalizing held notes pending session with
  | nil => exact (state.calls small allowed settled).2 e (state.noticed small inUse)
  | cons call others ih =>
    obtain ⟨here, later⟩ := allowed
    obtain ⟨covers, balanced⟩ := settled
    exact ih (state.call small here covers).1 later balanced inUse

end Draft

section Commit

variable {capacity : Nat}

/-- The commit of an unpinned allocator clears the recorded extents that are
still empty, and nothing else. -/
theorem foldl_settleCleared (ids : List Nat) {a : Allocator}
    (unpinned : ∀ e, a.isPinned e = false) :
    (ids.foldl Allocator.settleCleared a).liveBytes = a.liveBytes ∧
      (ids.foldl Allocator.settleCleared a).shared = a.shared ∧
      (ids.foldl Allocator.settleCleared a).pinCount = a.pinCount ∧
      (ids.foldl Allocator.settleCleared a).n = a.n ∧
      ∀ e, (ids.foldl Allocator.settleCleared a).bitmap.test e =
        (a.bitmap.test e && !decide (e ∈ ids ∧ a.liveBytes e = 0)) := by
  induction ids generalizing a with
  | nil => simp
  | cons id rest ih =>
    have step : (a.settleCleared id).liveBytes = a.liveBytes ∧
        (a.settleCleared id).shared = a.shared ∧ (a.settleCleared id).pinCount = a.pinCount ∧
        (a.settleCleared id).n = a.n ∧
        ∀ e, (a.settleCleared id).bitmap.test e =
          (a.bitmap.test e && !decide (e = id ∧ a.liveBytes e = 0)) := by
      unfold Allocator.settleCleared
      split
      · next inUse =>
        refine ⟨rfl, rfl, rfl, rfl, ?_⟩
        intro e
        have nonzero : ¬(e = id ∧ a.liveBytes e = 0) := by
          intro both
          obtain ⟨rfl, zero⟩ := both
          rw [zero] at inUse
          exact absurd inUse (by decide)
        simp [nonzero]
      · next empty =>
        have zero : a.liveBytes id = 0 := by
          rw [← UInt32.toNat_inj]
          rw [gt_iff_lt, UInt32.lt_iff_toNat_lt] at empty
          simpa using empty
        rw [unpinned id]
        simp only [Bool.false_eq_true, if_false]
        split
        · refine ⟨rfl, rfl, rfl, rfl, ?_⟩
          intro e
          simp only [Bitmap.test_clearBit]
          by_cases same : e = id
          · simp [same, zero]
          · simp [same]
        · next clear =>
          refine ⟨rfl, rfl, rfl, rfl, ?_⟩
          intro e
          by_cases same : e = id
          · simp only [same, Bool.not_eq_true] at clear ⊢
            simp [clear]
          · simp [same]
    obtain ⟨live, shared, pinCount, count, bits⟩ := step
    have still : ∀ e, (a.settleCleared id).isPinned e = false := fun e =>
      (Allocator.isPinned_congr pinCount count e).trans (unpinned e)
    obtain ⟨liveRest, sharedRest, pinRest, countRest, bitsRest⟩ := ih still
    rw [List.foldl_cons]
    refine ⟨liveRest.trans live, sharedRest.trans shared, pinRest.trans pinCount,
      countRest.trans count, ?_⟩
    intro e
    rw [bitsRest e, bits e, live, Bool.and_assoc, ← Bool.not_or, ← Bool.decide_or]
    simp only [List.mem_cons, or_and_right]

theorem InDraft.toAllocDraft {keys : Multiset SegKey} {a : Allocator}
    (inDraft : InDraft capacity keys 0 a) (small : capacity ≤ 16777216) (draft : Staged) :
    InDraft capacity keys 0 (a.toAllocDraft draft).1 := by
  obtain ⟨live, shared, pinCount, count, bits⟩ :=
    foldl_settleCleared draft.cleared inDraft.unpinned
  simp only [Allocator.toAllocDraft]
  refine ⟨?_, ?_, ?_, ?_, ?_, inDraft.disjoint, inDraft.inside, inDraft.pendingBound, ?_⟩
  · simpa only [live] using inDraft.live
  · simpa only [Allocator.holders, shared] using inDraft.holders
  · simpa only [shared] using inDraft.orphan
  · intro key member nonempty
    have inUse : a.liveBytes key.extent ≠ 0 := by
      rw [Ne, inDraft.live_eq_zero_iff small]
      have positive := (heldBytes_pos_iff key.extent).mpr ⟨key, member, rfl, nonempty⟩
      omega
    simp [bits key.extent, inDraft.bits key member nonempty, inUse]
  · intro change member
    exact absurd member (Multiset.notMem_zero change)
  · intro e
    exact (Allocator.isPinned_congr pinCount count e).trans (inDraft.unpinned e)

theorem inDraft_new (capacity n : Nat) : InDraft capacity 0 0 (Allocator.new n) := by
  refine ⟨?_, ?_, ?_, ?_, ?_, ?_, ?_, ?_, ?_⟩
  all_goals simp [Allocator.new, heldBytes, distinctSum, Allocator.isPinned]

theorem InDraft.start {held : List (List Segment)} {a : Allocator}
    (inDraft : InDraft capacity (heldKeys held) 0 a) : DraftState capacity held [] 0 (a, {}) :=
  ⟨inDraft, rfl, Multiset.zero_le _, List.nodup_nil, by simp, by simp⟩

theorem InDraft.commit {world : World} (inDraft : InDraft capacity (heldKeys world.held) 0 world.alloc)
    (small : capacity ≤ 16777216) {calls : List DraftCall}
    (allowed : AllAllowed capacity (world.alloc, {}) world.held [] calls)
    (settled : NotesSettled [] 0 calls) :
    InDraft capacity (heldKeys (world.commit calls).held) 0 (world.commit calls).alloc := by
  obtain ⟨⟨last, finished⟩, _⟩ := inDraft.start.calls small allowed settled
  exact finished.inDraft.toAllocDraft small _

theorem Reached.inDraft {n : Nat} {world : World} (reached : Reached capacity n world)
    (small : capacity ≤ 16777216) : InDraft capacity (heldKeys world.held) 0 world.alloc := by
  induction reached with
  | start => exact inDraft_new capacity n
  | commit _ allowed settled ih => exact ih.commit small allowed settled

theorem InDraft.accounted {world : World}
    (inDraft : InDraft capacity (heldKeys world.held) 0 world.alloc)
    (small : capacity ≤ 16777216) : Accounted world where
  live := by simpa using inDraft.live_toNat small
  holders := inDraft.holders
  orphan := inDraft.orphan
  bits := inDraft.bits

/-- Every transaction of a run whose noted segments are all settled leaves exact
counters behind, and frees the extents that lost their last held byte. -/
theorem commit_accounted {n : Nat} {world : World} (small : capacity ≤ 16777216)
    (reached : Reached capacity n world) {calls : List DraftCall}
    (allowed : AllAllowed capacity (world.alloc, {}) world.held [] calls)
    (settled : NotesSettled [] 0 calls) :
    Accounted (world.commit calls) ∧ LostExtentsFreed world calls := by
  have start := (reached.inDraft small).start
  refine ⟨((reached.inDraft small).commit small allowed settled).accounted small, ?_⟩
  intro before rest e split inUse lost
  subst split
  obtain ⟨⟨last, finished⟩, _⟩ := start.calls small allowed settled
  have noticed := start.noticed_of_held_before small allowed settled inUse
  have empty : ((before ++ rest).foldl DraftCall.run (world.alloc, {})).1.liveBytes e = 0 := by
    rw [finished.inDraft.live_eq_zero_iff small]
    refine ⟨?_, rfl⟩
    by_contra positive
    obtain ⟨key, member, here, nonempty⟩ := (heldBytes_pos_iff e).mp (Nat.pos_of_ne_zero positive)
    have zero := lost key member here
    omega
  have recorded := noticed.resolve_left (fun nonzero => nonzero empty)
  obtain ⟨_, _, _, _, bits⟩ := foldl_settleCleared
    ((before ++ rest).foldl DraftCall.run (world.alloc, {})).2.cleared finished.inDraft.unpinned
  change (Allocator.toAllocDraft _ _).1.bitmap.test e = false
  simp only [Allocator.toAllocDraft, runDraft]
  rw [bits e, decide_eq_true ⟨recorded, empty⟩, Bool.not_true, Bool.and_false]

def storeNoted : List DraftCall :=
  [.allocate 0 1, .noteInflightSegment ⟨0, 0, 4096, []⟩, .addObject [⟨0, 0, 4096, []⟩]]

theorem commit_accounted_storeNoted :
    Accounted (World.commit ⟨Allocator.new 4, []⟩ storeNoted) ∧
      LostExtentsFreed ⟨Allocator.new 4, []⟩ storeNoted := by
  apply @commit_accounted 1044480 4 _ (by decide) Reached.start
  · exact ⟨by decide, by decide, by decide, trivial⟩
  · refine ⟨trivial, trivial, ?_, ?_⟩
    · change (([(0, 4096)] : List (Nat × Nat)) : Multiset (Nat × Nat)) ≤ {(0, 4096)}
      decide
    · change ({(0, 4096)} : Multiset (Nat × Nat)) - ([(0, 4096)] : List (Nat × Nat)) = 0
      decide

/-- Two objects of equal length in one extent.  Only the first segment was noted,
but `add_object` skips the second one too, since the notes of the draft are never
used up. -/
def storeTwo : List DraftCall :=
  storeNoted ++ [.addObject [⟨0, 4096, 4096, []⟩]]

theorem commit_undercounts_second_object :
    AllAllowed 1044480 (Allocator.new 4, {}) [] [] storeTwo ∧
      ¬Accounted (World.commit ⟨Allocator.new 4, []⟩ storeTwo) := by
  refine ⟨⟨by decide, by decide, by decide, by decide, trivial⟩, ?_⟩
  intro accounted
  have live := accounted.live 0
  revert live
  decide

end Commit

end FastS3.Alloc
