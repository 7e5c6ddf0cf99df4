import FastS3.Alloc.Draft
import FastS3.Data.Holdings

namespace FastS3.Alloc

open FastS3.Core Data

/-! The meaning of the counters.

The allocator is compared with the objects that hold segments.  `keys` is the
multiset of held segments, one occurrence for each holder, and `pending` the
segments accounted ahead of their object.  Inside a draft bits are only set;
the draft remembers in `cleared` which extents ran empty.
-/

/-- Bytes of extent `e` under held segments, each distinct segment once. -/
def heldBytes (keys : Multiset SegKey) (e : Nat) : Nat :=
  distinctSum (fun key => if key.extent = e then key.len else 0) keys

/-- Bytes of extent `e` accounted ahead. -/
def pendingBytes (pending : Multiset (Nat × Nat)) (e : Nat) : Nat :=
  (pending.map fun change => if change.1 = e then change.2 else 0).sum

structure InDraft (capacity : Nat) (keys : Multiset SegKey) (pending : Multiset (Nat × Nat))
    (a : Allocator) : Prop where
  live : ∀ e, a.liveBytes e = UInt32.ofNat (heldBytes keys e + pendingBytes pending e)
  holders : ∀ key ∈ keys, a.holders key = keys.count key
  orphan : ∀ key, key ∉ keys → a.shared key = none
  bits : ∀ key ∈ keys, 0 < key.len → a.bitmap.test key.extent = true
  pendingBits : ∀ change ∈ pending, 0 < change.2 → a.bitmap.test change.1 = true
  disjoint : ∀ left ∈ keys, ∀ right ∈ keys, left ≠ right → left.Disjoint right
  inside : ∀ key ∈ keys, key.offset + key.len ≤ capacity
  pendingBound : ∀ e, pendingBytes pending e ≤ capacity
  unpinned : ∀ e, a.isPinned e = false

def Noticed (a : Allocator) (draft : Staged) (e : Nat) : Prop :=
  a.liveBytes e ≠ 0 ∨ e ∈ draft.cleared

section Bytes

variable {keys : Multiset SegKey} {pending : Multiset (Nat × Nat)}

theorem heldBytes_le {capacity : Nat}
    (disjoint : ∀ left ∈ keys, ∀ right ∈ keys, left ≠ right → left.Disjoint right)
    (inside : ∀ key ∈ keys, key.offset + key.len ≤ capacity) (e : Nat) :
    heldBytes keys e ≤ capacity := by
  rw [heldBytes, distinctSum, ← Finset.sum_filter]
  apply sum_length_le_of_disjoint _ SegKey.offset
  · intro key member
    exact inside key (by simpa using (Finset.mem_filter.mp member).1)
  · intro left leftMember right rightMember different
    obtain ⟨leftHeld, leftExtent⟩ := Finset.mem_filter.mp leftMember
    obtain ⟨rightHeld, rightExtent⟩ := Finset.mem_filter.mp rightMember
    have apart := disjoint left (by simpa using leftHeld) right (by simpa using rightHeld) different
    rcases apart with extents | before | after
    · exact absurd (leftExtent.trans rightExtent.symm) extents
    · exact .inl before
    · exact .inr after

theorem heldBytes_pos_iff (e : Nat) :
    0 < heldBytes keys e ↔ ∃ key ∈ keys, key.extent = e ∧ 0 < key.len := by
  rw [heldBytes, distinctSum, Finset.sum_pos_iff]
  constructor
  · intro positive
    obtain ⟨key, member, weighs⟩ := positive
    split at weighs
    · next here => exact ⟨key, by simpa using member, here, weighs⟩
    · omega
  · intro held
    obtain ⟨key, member, here, nonempty⟩ := held
    exact ⟨key, by simpa using member, by simpa [here] using nonempty⟩

theorem pendingBytes_pos {e : Nat} (positive : 0 < pendingBytes pending e) :
    ∃ change ∈ pending, change.1 = e ∧ 0 < change.2 := by
  by_contra none
  simp only [not_exists, not_and] at none
  have zero : pendingBytes pending e = 0 := by
    rw [pendingBytes, Multiset.sum_eq_zero_iff]
    intro amount member
    obtain ⟨change, here, rfl⟩ := Multiset.mem_map.mp member
    by_cases same : change.1 = e
    · have := none change here same
      simp only [same, if_true]
      omega
    · simp [same]
  omega

@[simp] theorem pendingBytes_zero (e : Nat) : pendingBytes 0 e = 0 := rfl

theorem pendingBytes_cons (change : Nat × Nat) (e : Nat) :
    pendingBytes (change ::ₘ pending) e =
      (if change.1 = e then change.2 else 0) + pendingBytes pending e := by
  simp [pendingBytes]

theorem pendingBytes_add (left right : Multiset (Nat × Nat)) (e : Nat) :
    pendingBytes (left + right) e = pendingBytes left e + pendingBytes right e := by
  simp [pendingBytes]

end Bytes

section Bounds

variable {capacity : Nat} {keys : Multiset SegKey} {pending : Multiset (Nat × Nat)}
  {a : Allocator}

theorem InDraft.bound (inDraft : InDraft capacity keys pending a) (small : capacity ≤ 16777216)
    (e : Nat) : heldBytes keys e + pendingBytes pending e < 2 ^ 32 := by
  have held := heldBytes_le inDraft.disjoint inDraft.inside e
  have noted := inDraft.pendingBound e
  omega

theorem InDraft.live_toNat (inDraft : InDraft capacity keys pending a)
    (small : capacity ≤ 16777216) (e : Nat) :
    (a.liveBytes e).toNat = heldBytes keys e + pendingBytes pending e := by
  rw [inDraft.live e, UInt32.toNat_ofNat', Nat.mod_eq_of_lt (inDraft.bound small e)]

theorem InDraft.live_eq_zero_iff (inDraft : InDraft capacity keys pending a)
    (small : capacity ≤ 16777216) (e : Nat) :
    a.liveBytes e = 0 ↔ heldBytes keys e = 0 ∧ pendingBytes pending e = 0 := by
  rw [← UInt32.toNat_inj, inDraft.live_toNat small e]
  simp

theorem InDraft.live_of_clear (inDraft : InDraft capacity keys pending a)
    (small : capacity ≤ 16777216) {e : Nat} (clear : a.bitmap.test e = false) :
    a.liveBytes e = 0 := by
  rw [inDraft.live_eq_zero_iff small]
  constructor
  · by_contra positive
    obtain ⟨key, member, rfl, nonempty⟩ := (heldBytes_pos_iff e).mp (Nat.pos_of_ne_zero positive)
    rw [inDraft.bits key member nonempty] at clear
    cases clear
  · by_contra positive
    obtain ⟨change, member, rfl, nonempty⟩ := pendingBytes_pos (Nat.pos_of_ne_zero positive)
    rw [inDraft.pendingBits change member nonempty] at clear
    cases clear

end Bounds

/-! One lemma for each operation on the draft. -/

section Operations

variable {capacity : Nat} {keys : Multiset SegKey} {pending : Multiset (Nat × Nat)}
  {a after : Allocator} {draft : Staged}

theorem InDraft.congr (inDraft : InDraft capacity keys pending a)
    (liveBytes : after.liveBytes = a.liveBytes) (shared : after.shared = a.shared)
    (bits : ∀ e, a.bitmap.test e = true → after.bitmap.test e = true)
    (pinCount : after.pinCount = a.pinCount) (count : after.n = a.n) :
    InDraft capacity keys pending after where
  live := by simpa only [liveBytes] using inDraft.live
  holders := by simpa only [Allocator.holders, shared] using inDraft.holders
  orphan := by simpa only [shared] using inDraft.orphan
  bits := fun key member nonempty => bits _ (inDraft.bits key member nonempty)
  pendingBits := fun change member nonempty => bits _ (inDraft.pendingBits change member nonempty)
  disjoint := inDraft.disjoint
  inside := inDraft.inside
  pendingBound := inDraft.pendingBound
  unpinned := fun e => (Allocator.isPinned_congr pinCount count e).trans (inDraft.unpinned e)

theorem InDraft.took {taken parked : List Nat} (inDraft : InDraft capacity keys pending a)
    (took : Allocator.Took a after taken parked) : InDraft capacity keys pending after := by
  refine inDraft.congr took.liveBytes took.shared ?_ took.pinCount took.count
  intro e set
  rw [took.bits e, set, Bool.true_or]

theorem InDraft.allocate (inDraft : InDraft capacity keys pending a)
    (small : capacity ≤ 16777216) (draft : Staged) (hint count : Nat) :
    InDraft capacity keys pending (DraftCall.run (a, draft) (.allocate hint count)).1 := by
  obtain ⟨middle, taken, parked, _, took, ⟨_, result⟩ | ⟨_, back, gave, result⟩⟩ :=
    a.allocate_cases draft hint count
  · simp only [DraftCall.run, result]
    exact inDraft.took took
  · simp only [DraftCall.run, result]
    have clear : ∀ e ∈ taken, a.bitmap.test e = false := fun e member =>
      took.wasClear e (List.mem_append_left _ member)
    have live : back.liveBytes = a.liveBytes := by
      funext e
      rw [gave.liveBytes e, took.liveBytes]
      split
      · next member => exact (inDraft.live_of_clear small (clear e member)).symm
      · rfl
    refine inDraft.congr live (gave.shared.trans took.shared) ?_
      (gave.pinCount.trans took.pinCount) (gave.count.trans took.count)
    intro e set
    have kept : e ∉ taken := by
      intro member
      rw [clear e member] at set
      cases set
    simp [gave.bits e, took.bits e, kept, set]

theorem InDraft.allocateInRange (inDraft : InDraft capacity keys pending a) (draft : Staged)
    (hint start count : Nat) :
    InDraft capacity keys pending
      (DraftCall.run (a, draft) (.allocateInRange hint start count)).1 := by
  obtain ⟨back, taken, parked, _, took, result⟩ := a.allocateInRange_cases draft hint start count
  simp only [DraftCall.run, result]
  exact inDraft.took took

theorem InDraft.noteInflightSegment (inDraft : InDraft capacity keys pending a) (draft : Staged)
    {seg : Segment} (allocated : a.bitmap.test seg.extentId = true)
    (bound : ∀ e, pendingBytes ((seg.extentId, seg.len) ::ₘ pending) e ≤ capacity) :
    InDraft capacity keys ((seg.extentId, seg.len) ::ₘ pending)
      (a.noteInflightSegment draft seg).1 := by
  refine ⟨?_, inDraft.holders, inDraft.orphan, inDraft.bits, ?_, inDraft.disjoint, inDraft.inside,
    bound, inDraft.unpinned⟩
  · intro e
    simp only [Allocator.noteInflightSegment, Allocator.addLive, bump_apply, inDraft.live e,
      pendingBytes_cons]
    by_cases here : seg.extentId = e
    · simp only [here, if_true]
      rw [← UInt32.ofNat_add]
      congr 1
      omega
    · simp [here]
  · intro change member nonempty
    rcases Multiset.mem_cons.mp member with rfl | before
    · exact allocated
    · exact inDraft.pendingBits change before nonempty

def segKeys (segs : List Segment) : Multiset SegKey :=
  (segs.map Segment.key : List SegKey)

theorem segKeys_cons (s : Segment) (rest : List Segment) :
    segKeys (s :: rest) = s.key ::ₘ segKeys rest := rfl

variable {segs : List Segment} {key : SegKey}

theorem heldBytes_add_fresh (distinct : (segs.map Segment.key).Nodup)
    (fresh : ∀ s ∈ segs, s.key ∉ keys) (e : Nat) :
    heldBytes (segKeys segs + keys) e =
      pendingBytes ((segs.map fun s => (s.extentId, s.len) : List (Nat × Nat)) :
        Multiset (Nat × Nat)) e + heldBytes keys e := by
  induction segs with
  | nil => simp [segKeys, pendingBytes]
  | cons s rest ih =>
    rw [List.map_cons, List.nodup_cons] at distinct
    have unseen : s.key ∉ segKeys rest + keys := by
      simp only [segKeys, Multiset.mem_add, Multiset.mem_coe, not_or]
      exact ⟨distinct.1, fresh s (by simp)⟩
    have later := ih distinct.2 (fun other member => fresh other (by simp [member]))
    rw [segKeys_cons, Multiset.cons_add, heldBytes, distinctSum_cons_of_notMem unseen,
      ← heldBytes, later, List.map_cons, ← Multiset.cons_coe, pendingBytes_cons]
    exact (Nat.add_assoc _ _ _).symm

theorem heldBytes_add_held (held : ∀ s ∈ segs, s.key ∈ keys) (e : Nat) :
    heldBytes (segKeys segs + keys) e = heldBytes keys e := by
  induction segs with
  | nil => simp [segKeys]
  | cons s rest ih =>
    have seen : s.key ∈ segKeys rest + keys :=
      Multiset.mem_add.mpr (.inr (held s (by simp)))
    rw [segKeys_cons, Multiset.cons_add, heldBytes, distinctSum_cons_of_mem seen, ← heldBytes]
    exact ih (fun other member => held other (by simp [member]))

/-- The segments that `add_object` takes for accounted. -/
def covered : (Nat × Nat → Nat) → List Segment → List (Nat × Nat)
  | _, [] => []
  | preCounted, s :: rest =>
    let key := (s.extentId, s.len)
    if preCounted key > 0 then
      key :: covered (Function.update preCounted key (preCounted key - 1)) rest
    else covered preCounted rest

theorem covered_add_uncovered (preCounted : Nat × Nat → Nat) (segs : List Segment) :
    ((segs.map fun s => (s.extentId, s.len) : List (Nat × Nat)) : Multiset (Nat × Nat)) =
      (covered preCounted segs : Multiset (Nat × Nat)) +
        (uncovered preCounted segs : Multiset (Nat × Nat)) := by
  induction segs generalizing preCounted with
  | nil => rfl
  | cons s rest ih =>
    simp only [covered, uncovered, List.map_cons]
    split
    · rw [← Multiset.cons_coe, ← Multiset.cons_coe, ih, Multiset.cons_add]
    · rw [← Multiset.cons_coe, ← Multiset.cons_coe, ih preCounted, Multiset.add_cons]

theorem liveTotal_eq_pendingBytes (changes : List (Nat × Nat)) (e : Nat) :
    liveTotal changes e = UInt32.ofNat (pendingBytes (changes : Multiset (Nat × Nat)) e) := by
  induction changes with
  | nil => simp [liveTotal, pendingBytes]
  | cons change rest ih =>
    rw [← Multiset.cons_coe, pendingBytes_cons, UInt32.ofNat_add, ← ih]
    by_cases here : change.1 = e
    · simp [liveTotal, total_cons, here]
    · simp [liveTotal, total_cons, here]

theorem bytes_addObject {preCounted : Nat × Nat → Nat} (distinct : (segs.map Segment.key).Nodup)
    (fresh : ∀ s ∈ segs, s.key ∉ keys)
    (balanced : (covered preCounted segs : Multiset (Nat × Nat)) ≤ pending) (e : Nat) :
    heldBytes (segKeys segs + keys) e +
        pendingBytes (pending - (covered preCounted segs : Multiset (Nat × Nat))) e =
      heldBytes keys e + pendingBytes pending e +
        pendingBytes (uncovered preCounted segs : Multiset (Nat × Nat)) e := by
  have split := heldBytes_add_fresh distinct fresh e
  rw [covered_add_uncovered preCounted segs, pendingBytes_add] at split
  have remains : pendingBytes (pending - (covered preCounted segs : Multiset (Nat × Nat))) e +
      pendingBytes (covered preCounted segs : Multiset (Nat × Nat)) e = pendingBytes pending e := by
    rw [← pendingBytes_add, Multiset.sub_add_cancel balanced]
  omega

/-- `add_object` turns accounted bytes into held ones, provided it takes no more
segments for accounted than are pending. -/
theorem InDraft.addObject (inDraft : InDraft capacity keys pending a)
    (allocated : ∀ s ∈ segs, a.bitmap.test s.extentId = true)
    (inside : ∀ s ∈ segs, s.offset + s.len ≤ capacity) (distinct : (segs.map Segment.key).Nodup)
    (apart : ∀ left ∈ segs, ∀ right ∈ segs, left.key ≠ right.key → left.key.Disjoint right.key)
    (fresh : ∀ s ∈ segs, s.key ∉ keys ∧ ∀ key ∈ keys, s.key.Disjoint key)
    (balanced : (covered (fun key => draft.inflight.count key) segs : Multiset (Nat × Nat)) ≤
      pending) :
    InDraft capacity (segKeys segs + keys)
      (pending - (covered (fun key => draft.inflight.count key) segs : Multiset (Nat × Nat)))
      (a.addObject draft segs).1 := by
  have effect : (∀ e, (a.addObject draft segs).1.liveBytes e = a.liveBytes e +
        liveTotal (uncovered (fun key => draft.inflight.count key) segs) e) ∧
      (a.addObject draft segs).1.shared = a.shared ∧
      (a.addObject draft segs).1.bitmap = a.bitmap ∧
      (a.addObject draft segs).1.pinCount = a.pinCount ∧ (a.addObject draft segs).1.n = a.n := by
    unfold Allocator.addObject
    split
    · next empty =>
      subst empty
      simp [uncovered, liveTotal]
    · rw [Allocator.addSegments_eq, Allocator.noteRefs_eq, Allocator.foldl_addLive,
        Allocator.foldl_incRef]
      exact ⟨fun _ => rfl, rfl, rfl, rfl, rfl⟩
  obtain ⟨liveBytes, shared, bitmap, pinCount, count⟩ := effect
  have member : ∀ key, key ∈ segKeys segs + keys ↔ (∃ s ∈ segs, s.key = key) ∨ key ∈ keys := by
    intro key
    simp [segKeys]
  refine ⟨?_, ?_, ?_, ?_, ?_, ?_, ?_, ?_, ?_⟩
  · intro e
    rw [liveBytes, inDraft.live e, liveTotal_eq_pendingBytes, ← UInt32.ofNat_add,
      bytes_addObject distinct (fun s here => (fresh s here).1) balanced]
  · intro key held
    rw [Allocator.holders, shared]
    rcases (member key).mp held with ⟨s, here, rfl⟩ | before
    · obtain ⟨unheld, _⟩ := fresh s here
      have once : (segs.map Segment.key).count s.key = 1 :=
        List.count_eq_one_of_mem distinct (List.mem_map_of_mem here)
      rw [inDraft.orphan _ unheld, Multiset.count_add, Multiset.count_eq_zero.mpr unheld]
      simp [segKeys, once]
    · have notNew : (segs.map Segment.key).count key = 0 := by
        rw [List.count_eq_zero]
        intro new
        obtain ⟨s, here, rfl⟩ := List.mem_map.mp new
        exact (fresh s here).1 before
      rw [Multiset.count_add]
      simpa [segKeys, notNew, Allocator.holders] using inDraft.holders key before
  · intro key unheld
    rw [member, not_or] at unheld
    rw [shared]
    exact inDraft.orphan key unheld.2
  · intro key held nonempty
    rw [bitmap]
    rcases (member key).mp held with ⟨s, here, rfl⟩ | before
    · exact allocated s here
    · exact inDraft.bits key before nonempty
  · intro change here nonempty
    rw [bitmap]
    exact inDraft.pendingBits change (Multiset.mem_of_le (Multiset.sub_le_self _ _) here) nonempty
  · intro left leftHeld right rightHeld different
    rcases (member left).mp leftHeld with ⟨s, here, rfl⟩ | before
    · rcases (member right).mp rightHeld with ⟨t, there, rfl⟩ | beforeRight
      · exact apart s here t there different
      · exact (fresh s here).2 right beforeRight
    · rcases (member right).mp rightHeld with ⟨t, there, rfl⟩ | beforeRight
      · exact ((fresh t there).2 left before).symm
      · exact inDraft.disjoint left before right beforeRight different
  · intro key held
    rcases (member key).mp held with ⟨s, here, rfl⟩ | before
    · exact inside s here
    · exact inDraft.inside key before
  · intro e
    refine Nat.le_trans ?_ (inDraft.pendingBound e)
    rw [← Multiset.sub_add_cancel balanced, pendingBytes_add, Multiset.add_sub_cancel_right]
    exact Nat.le_add_right _ _
  · intro e
    exact (Allocator.isPinned_congr pinCount count e).trans (inDraft.unpinned e)

theorem getD_iterate_share (times : Nat) (entry : Option Nat) :
    (SparseCounts.share^[times] entry).getD 1 = entry.getD 1 + times := by
  induction times generalizing entry with
  | zero => rfl
  | succ times ih =>
    rw [Function.iterate_succ_apply, ih, SparseCounts.share, Option.getD_some]
    omega

theorem InDraft.shareObject (inDraft : InDraft capacity keys pending a)
    (held : ∀ s ∈ segs, s.key ∈ keys) (draft : Staged) :
    InDraft capacity (segKeys segs + keys) pending (a.shareObject draft segs).1 := by
  have effect : (a.shareObject draft segs).1.liveBytes = a.liveBytes ∧
      (∀ key, (a.shareObject draft segs).1.shared key =
        SparseCounts.share^[(segs.map Segment.key).count key] (a.shared key)) ∧
      (a.shareObject draft segs).1.bitmap = a.bitmap ∧
      (a.shareObject draft segs).1.pinCount = a.pinCount ∧
      (a.shareObject draft segs).1.n = a.n := by
    unfold Allocator.shareObject
    split
    · next empty =>
      subst empty
      exact ⟨rfl, fun _ => rfl, rfl, rfl, rfl⟩
    · rw [Allocator.shareSegments_eq, Allocator.noteRefs_eq, Allocator.foldl_incRef]
      exact ⟨rfl, fun key => Allocator.shareKeys_apply _ _ key, rfl, rfl, rfl⟩
  obtain ⟨liveBytes, shared, bitmap, pinCount, count⟩ := effect
  have member : ∀ key, key ∈ segKeys segs + keys ↔ key ∈ keys := by
    intro key
    simp only [segKeys, Multiset.mem_add, Multiset.mem_coe, or_iff_right_iff_imp, List.mem_map]
    intro new
    obtain ⟨s, here, rfl⟩ := new
    exact held s here
  refine ⟨?_, ?_, ?_, ?_, ?_, ?_, ?_, inDraft.pendingBound, ?_⟩
  · intro e
    rw [liveBytes, inDraft.live e, heldBytes_add_held held]
  · intro key here
    have before := inDraft.holders key ((member key).mp here)
    rw [Allocator.holders] at before
    rw [Allocator.holders, shared, getD_iterate_share, before, Multiset.count_add, segKeys,
      Multiset.coe_count]
    omega
  · intro key unheld
    have before := (member key).not.mp unheld
    have none : (segs.map Segment.key).count key = 0 := by
      rw [List.count_eq_zero]
      intro new
      obtain ⟨s, here, rfl⟩ := List.mem_map.mp new
      exact before (held s here)
    rw [shared, none]
    exact inDraft.orphan key before
  · simpa only [member, bitmap] using inDraft.bits
  · simpa only [bitmap] using inDraft.pendingBits
  · simpa only [member] using inDraft.disjoint
  · simpa only [member] using inDraft.inside
  · intro e
    exact (Allocator.isPinned_congr pinCount count e).trans (inDraft.unpinned e)

theorem heldBytes_erase_last (last : keys.count key = 1) (e : Nat) :
    (if key.extent = e then key.len else 0) + heldBytes (keys.erase key) e = heldBytes keys e :=
  @distinctSum_erase_of_one _ _ _ _ (fun key => if key.extent = e then key.len else 0) _ _ last

theorem InDraft.eraseLast (inDraft : InDraft capacity keys pending a) (last : keys.count key = 1)
    (live : ∀ e, after.liveBytes e = a.liveBytes e - liveTotal [(key.extent, key.len)] e)
    (shared : after.shared = Function.update a.shared key none) (bitmap : after.bitmap = a.bitmap)
    (pinCount : after.pinCount = a.pinCount) (count : after.n = a.n) :
    InDraft capacity (keys.erase key) pending after := by
  have gone : key ∉ keys.erase key := by
    rw [← Multiset.count_eq_zero, Multiset.count_erase_self]
    omega
  have kept : ∀ other ∈ keys.erase key, other ∈ keys ∧ other ≠ key := by
    intro other still
    refine ⟨Multiset.mem_of_mem_erase still, ?_⟩
    intro same
    exact gone (same ▸ still)
  refine ⟨?_, ?_, ?_, ?_, ?_, ?_, ?_, inDraft.pendingBound, ?_⟩
  · intro e
    rw [live e, liveTotal_singleton, inDraft.live e, ← heldBytes_erase_last last e, sub_eq_iff_eq_add]
    by_cases same : key.extent = e
    · rw [if_pos same, if_pos same, ← UInt32.ofNat_add]
      congr 1
      omega
    · rw [if_neg same, if_neg same, Nat.zero_add, add_zero]
  · intro other still
    obtain ⟨held, different⟩ := kept other still
    rw [Allocator.holders, shared, Function.update_of_ne different,
      Multiset.count_erase_of_ne different]
    exact inDraft.holders other held
  · intro other absent
    rw [shared]
    by_cases same : other = key
    · simp [same]
    · rw [Function.update_of_ne same]
      apply inDraft.orphan
      intro held
      exact absent ((Multiset.mem_erase_of_ne same).mpr held)
  · intro other still nonempty
    rw [bitmap]
    exact inDraft.bits other (kept other still).1 nonempty
  · simpa only [bitmap] using inDraft.pendingBits
  · intro left leftHeld right rightHeld
    exact inDraft.disjoint left (kept left leftHeld).1 right (kept right rightHeld).1
  · intro other still
    exact inDraft.inside other (kept other still).1
  · intro e
    exact (Allocator.isPinned_congr pinCount count e).trans (inDraft.unpinned e)

theorem InDraft.eraseOne (inDraft : InDraft capacity keys pending a) {holders : Nat}
    (entry : a.shared key = some holders) (many : holders > 1) (member : key ∈ keys)
    (live : after.liveBytes = a.liveBytes)
    (shared : after.shared = Function.update a.shared key (some (holders - 1)))
    (bitmap : after.bitmap = a.bitmap) (pinCount : after.pinCount = a.pinCount)
    (count : after.n = a.n) : InDraft capacity (keys.erase key) pending after := by
  have counted := inDraft.holders key member
  simp only [Allocator.holders, entry, Option.getD_some] at counted
  have still : ∀ other, other ∈ keys.erase key ↔ other ∈ keys := by
    intro other
    by_cases same : other = key
    · subst same
      rw [← Multiset.one_le_count_iff_mem, ← Multiset.one_le_count_iff_mem,
        Multiset.count_erase_self]
      omega
    · exact Multiset.mem_erase_of_ne same
  refine ⟨?_, ?_, ?_, ?_, ?_, ?_, ?_, inDraft.pendingBound, ?_⟩
  · intro e
    rw [live, inDraft.live e, heldBytes, heldBytes, distinctSum_erase_of_one_lt (by omega)]
  · intro other held
    rw [Allocator.holders, shared]
    by_cases same : other = key
    · subst same
      rw [Function.update_self, Option.getD_some, Multiset.count_erase_self, counted]
    · rw [Function.update_of_ne same, Multiset.count_erase_of_ne same]
      exact inDraft.holders other ((still other).mp held)
  · intro other absent
    have before := (still other).not.mp absent
    have different : other ≠ key := fun same => before (same ▸ member)
    rw [shared, Function.update_of_ne different]
    exact inDraft.orphan other before
  · simpa only [still, bitmap] using inDraft.bits
  · simpa only [bitmap] using inDraft.pendingBits
  · simpa only [still] using inDraft.disjoint
  · simpa only [still] using inDraft.inside
  · intro e
    exact (Allocator.isPinned_congr pinCount count e).trans (inDraft.unpinned e)

theorem InDraft.releaseSegment (inDraft : InDraft capacity keys pending a)
    (small : capacity ≤ 16777216) {s : Segment} (member : s.key ∈ keys) (draft : Staged) :
    InDraft capacity (keys.erase s.key) pending (Allocator.releaseSegment (a, draft) s).1 ∧
      ∀ e, Noticed a draft e → Noticed (Allocator.releaseSegment (a, draft) s).1
        (Allocator.releaseSegment (a, draft) s).2 e := by
  have atLeast := Multiset.one_le_count_iff_mem.mpr member
  have counted := inDraft.holders s.key member
  -- The last holder goes through `dec_live`, with or without a table entry of one.
  have lastHolder : ∀ shared log, keys.count s.key = 1 →
      shared = Function.update a.shared s.key none → log.cleared = draft.cleared →
      InDraft capacity (keys.erase s.key) pending
          (Allocator.decLive ({ a with shared := shared }, log) s.extentId s.len).1 ∧
        ∀ e, Noticed a draft e →
          Noticed (Allocator.decLive ({ a with shared := shared }, log) s.extentId s.len).1
            (Allocator.decLive ({ a with shared := shared }, log) s.extentId s.len).2 e := by
    intro shared log last table clears
    have here := heldBytes_erase_last last s.key.extent
    rw [if_pos rfl] at here
    have value := inDraft.live_toNat small s.extentId
    have bound := inDraft.bound small s.extentId
    have lenNat : (UInt32.ofNat s.len).toNat = s.len := by
      have smallLen : s.len < 2 ^ 32 := by
        simp only [Segment.key] at here
        omega
      rw [UInt32.toNat_ofNat', Nat.mod_eq_of_lt smallLen]
    have enough : ¬a.liveBytes s.extentId < UInt32.ofNat s.len := by
      rw [UInt32.lt_iff_toNat_lt, value, lenNat]
      simp only [Segment.key] at here
      omega
    rcases Allocator.decLive_eq { a with shared := shared } log s.extentId s.len with
      ⟨_, short⟩ | ⟨after, result, _, outcome⟩
    · exact absurd short enough
    · rw [result]
      refine ⟨inDraft.eraseLast last (fun _ => rfl) table rfl rfl rfl, ?_⟩
      intro e noticed
      rcases noticed with nonzero | recorded
      · by_cases same : s.extentId = e
        · rcases outcome with ⟨_, differs⟩ | ⟨rfl, _⟩
          · left
            simp only [liveTotal_singleton, same, if_true, ne_eq, sub_eq_zero]
            exact same ▸ differs
          · right
            simp [same]
        · left
          simpa [liveTotal_singleton, same] using nonzero
      · right
        rcases outcome with ⟨rfl, _⟩ | ⟨rfl, _⟩
        · simpa [clears] using recorded
        · simp [clears, recorded]
  simp only [Allocator.releaseSegment]
  cases entry : a.shared s.key with
  | none =>
    have last : keys.count s.key = 1 := by
      simpa [Allocator.holders, entry] using counted.symm
    have table : a.shared = Function.update a.shared s.key none := by
      rw [← entry, Function.update_eq_self]
    exact lastHolder a.shared draft last table rfl
  | some holders =>
    simp only [Allocator.holders, entry, Option.getD_some] at counted
    by_cases many : holders > 1
    · simp only [many, if_true]
      refine ⟨inDraft.eraseOne entry many member rfl rfl rfl rfl rfl, ?_⟩
      intro e noticed
      exact noticed
    · simp only [many, if_false]
      exact lastHolder _ { draft with sharedDec := draft.sharedDec ++ [s.key] } (by omega) rfl rfl

theorem InDraft.releaseSegments (inDraft : InDraft capacity (segKeys segs + keys) pending a)
    (small : capacity ≤ 16777216) (draft : Staged) :
    InDraft capacity keys pending (segs.foldl Allocator.releaseSegment (a, draft)).1 ∧
      ∀ e, Noticed a draft e → Noticed (segs.foldl Allocator.releaseSegment (a, draft)).1
        (segs.foldl Allocator.releaseSegment (a, draft)).2 e := by
  induction segs generalizing a draft with
  | nil =>
    refine ⟨by simpa [segKeys] using inDraft, ?_⟩
    intro e noticed
    exact noticed
  | cons s rest ih =>
    have member : s.key ∈ segKeys (s :: rest) + keys := by simp [segKeys]
    obtain ⟨released, noticed⟩ := inDraft.releaseSegment small member draft
    rw [segKeys_cons, Multiset.cons_add, Multiset.erase_cons_head] at released
    rw [List.foldl_cons]
    obtain ⟨finished, later⟩ := ih released _
    exact ⟨finished, fun e before => later e (noticed e before)⟩

theorem InDraft.releaseObject (inDraft : InDraft capacity (segKeys segs + keys) pending a)
    (small : capacity ≤ 16777216) (draft : Staged) :
    InDraft capacity keys pending (a.releaseObject draft segs).1 ∧
      ∀ e, Noticed a draft e →
        Noticed (a.releaseObject draft segs).1 (a.releaseObject draft segs).2 e := by
  obtain ⟨released, noticed⟩ := inDraft.releaseSegments small draft
  unfold Allocator.releaseObject
  revert released noticed
  generalize segs.foldl Allocator.releaseSegment (a, draft) = middle
  intro released noticed
  obtain ⟨dropped, result⟩ := Allocator.dropRefs_eq middle.1 middle.2 (seenExtents segs)
  rw [result, Allocator.foldl_decRef]
  exact ⟨released.congr rfl rfl (fun _ set => set) rfl rfl, noticed⟩

end Operations

end FastS3.Alloc
