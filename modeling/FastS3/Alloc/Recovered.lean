import FastS3.Alloc.FailedCommit
import FastS3.Alloc.Rebuild

namespace FastS3.Alloc

open FastS3.Core Data

/-! Recovery of the allocator, and the sweep of leaked extents.

The bitmap that recovery starts from comes from the last checkpoints and the records behind them and
may be wrong in any place.  The counters are computed from the stored records alone; then every extent
with live bytes gets its bit, and an extent with a bit that no record names is a leak.
-/

/-- What `acc_scan_segments` keeps of a record: a segment whose data is still upstream is left out. -/
def localSegments (pending : List SegKey) (segs : List Segment) : List Segment :=
  segs.filter fun s => s.key ∉ pending

def localLists (pending : List SegKey) (stored : List (List Segment)) : List (List Segment) :=
  (stored.map (localSegments pending)).filter (· ≠ [])

/-- `collect_reachable_extents`; segments that are still upstream are reachable as well. -/
def reachableExtents (stored : List (List Segment)) : List Nat :=
  stored.flatten.map Segment.extentId

namespace Allocator

def leaks (a : Allocator) (reachable : List Nat) : List Nat :=
  (List.range a.n).filter fun id => a.bitmap.test id && decide (id ∉ reachable)

/-- `stored` has one list for each record, restored copy and part. -/
def rebuildSegmentState (a : Allocator) (pending : List SegKey) (stored : List (List Segment)) :
    Allocator × List Nat × (Nat → Option Nat) :=
  let lists := localLists pending stored
  let a := (a.rebuildDerived lists).healBitmap
  (a, a.leaks (reachableExtents stored), maxEnds lists.flatten)

def releaseLeaked (session : Allocator × Staged) (id : Nat) : (Allocator × Staged) × Bool :=
  let (a, draft) := session
  if a.bitmap.test id = false ∨ a.isPinned id then ((a, draft), false)
  else
    (({ a with
        bitmap := a.bitmap.clearBit id
        refcounts := Function.update a.refcounts id 0
        liveBytes := Function.update a.liveBytes id 0
        state := Function.update a.state id .free
        totalFree := a.totalFree + 1 },
      { draft with refDec := draft.refDec ++ [id], cleared := draft.cleared ++ [id] }), true)

/-- The loop of `repair_leaks`, with the numbers of extents freed and kept. -/
def sweepLeaks (kept : List Nat) :
    List Nat → (Allocator × Staged) × Nat × Nat → (Allocator × Staged) × Nat × Nat
  | [], swept => swept
  | id :: rest, (session, freed, skipped) =>
    if id ∈ kept then sweepLeaks kept rest (session, freed, skipped + 1)
    else
      match releaseLeaked session id with
      | (session, true) => sweepLeaks kept rest (session, freed + 1, skipped)
      | (session, false) => sweepLeaks kept rest (session, freed, skipped)

end Allocator

structure LeakRepairReport where
  scanned : Nat
  leaksFound : Nat
  freedExtents : Nat
  bytesReclaimed : Nat
  skippedLocked : Nat
deriving DecidableEq

/-- `repair_leaks` of a writable engine, without the checkpoint behind the commit.  `kept` has the
extents of locked records and of restored copies, and `commits` tells whether the transaction that
records the sweep succeeds. -/
def repairLeaks (a : Allocator) (reachable kept : List Nat) (extentSize : Nat) (commits : Bool) :
    Allocator × Option LeakRepairReport :=
  let found := a.leaks reachable
  let ((swept, draft), freed, skipped) := Allocator.sweepLeaks kept found ((a, {}), 0, 0)
  let report : LeakRepairReport := ⟨a.n, found.length, freed, freed * extentSize, skipped⟩
  if freed = 0 then (swept, some report)
  else
    let (settled, _) := swept.toAllocDraft draft
    if commits then (settled, some report) else (settled.rollback draft, none)

/-- The worlds reached from another one by committed transactions. -/
inductive ReachedFrom (capacity : Nat) (start : World) : World → Prop where
  | start : ReachedFrom capacity start start
  | commit {world : World} {calls : List DraftCall} (runs : ReachedFrom capacity start world)
      (allowed : AllAllowed capacity (world.alloc, {}) world.held [] calls)
      (settled : NotesSettled [] 0 calls) : ReachedFrom capacity start (world.commit calls)

variable {capacity : Nat}

theorem ReachedFrom.inDraft {start world : World} (runs : ReachedFrom capacity start world)
    (small : capacity ≤ 16777216)
    (inDraft : InDraft capacity (heldKeys start.held) 0 start.alloc) :
    InDraft capacity (heldKeys world.held) 0 world.alloc := by
  induction runs with
  | start => exact inDraft
  | commit _ allowed settled ih => exact ih.commit small allowed settled

section Rebuild

/-- Stored segments that fit a pool of `n` extents. -/
structure Storable (capacity n : Nat) (held : List (List Segment)) : Prop where
  extents : ∀ key ∈ heldKeys held, key.extent < n
  inside : ∀ key ∈ heldKeys held, key.offset + key.len ≤ capacity
  disjoint : ∀ left ∈ heldKeys held, ∀ right ∈ heldKeys held, left ≠ right → left.Disjoint right

theorem liveTotal_dedup (keys : List SegKey) (e : Nat) :
    liveTotal (keys.dedup.map fun key => (key.extent, key.len)) e =
      UInt32.ofNat (heldBytes keys e) := by
  rw [liveTotal_eq_pendingBytes, pendingBytes, heldBytes, distinctSum]
  congr 1
  rw [Multiset.map_coe, List.map_map, Multiset.sum_coe, ← List.sum_toFinset _ keys.nodup_dedup]
  apply Finset.sum_congr
  · ext key
    simp
  · intro key _
    rfl

/-- The fields that `heal_bitmap` leaves alone, and the bits it sets. -/
theorem foldl_healExtent (ids : List Nat) (a : Allocator) :
    (ids.foldl Allocator.healExtent a).liveBytes = a.liveBytes ∧
      (ids.foldl Allocator.healExtent a).shared = a.shared ∧
      (ids.foldl Allocator.healExtent a).pinCount = a.pinCount ∧
      (ids.foldl Allocator.healExtent a).n = a.n ∧
      ∀ e, (ids.foldl Allocator.healExtent a).bitmap.test e =
        (a.bitmap.test e || decide (e ∈ ids ∧ 0 < a.liveBytes e)) := by
  induction ids generalizing a with
  | nil => simp
  | cons id rest ih =>
    have step : (a.healExtent id).liveBytes = a.liveBytes ∧ (a.healExtent id).shared = a.shared ∧
        (a.healExtent id).pinCount = a.pinCount ∧ (a.healExtent id).n = a.n ∧
        ∀ e, (a.healExtent id).bitmap.test e =
          (a.bitmap.test e || decide (e = id ∧ 0 < a.liveBytes e)) := by
      unfold Allocator.healExtent
      split
      · next lost =>
        refine ⟨rfl, rfl, rfl, rfl, ?_⟩
        intro e
        rw [Bitmap.test_setBit, Bool.or_comm]
        by_cases same : e = id
        · simp [same, lost.1]
        · simp [same]
      · next fine =>
        refine ⟨rfl, rfl, rfl, rfl, ?_⟩
        intro e
        by_cases same : e = id
        · subst same
          cases held : a.bitmap.test e with
          | true => rfl
          | false =>
            have empty : ¬0 < a.liveBytes e := fun live => fine ⟨live, held⟩
            simp [empty]
        · simp [same]
    obtain ⟨live, shared, pins, count, bits⟩ := step
    obtain ⟨liveRest, sharedRest, pinsRest, countRest, bitsRest⟩ := ih (a.healExtent id)
    rw [List.foldl_cons]
    refine ⟨liveRest.trans live, sharedRest.trans shared, pinsRest.trans pins,
      countRest.trans count, ?_⟩
    intro e
    rw [bitsRest e, bits e, live, Bool.or_assoc, ← Bool.decide_or]
    simp only [List.mem_cons, or_and_right]

theorem foldl_incRefs (objects : List (List Segment)) (a : Allocator) :
    objects.foldl (fun a segs => (seenExtents segs).foldl Allocator.incRef a) a =
      { a with refcounts := fun e => a.refcounts e + refTotal (objects.flatMap seenExtents) e } := by
  induction objects generalizing a with
  | nil => simp [refTotal]
  | cons segs rest ih =>
    rw [List.foldl_cons, ih, Allocator.foldl_incRef, List.flatMap_cons]
    simp only [refTotal_append, add_assoc]

theorem rebuildDerived_eq (a : Allocator) (objects : List (List Segment)) :
    a.rebuildDerived objects =
      { a with
        liveBytes := fun e => UInt32.ofNat (heldBytes (heldKeys objects) e)
        refcounts := fun e => refTotal (objects.flatMap seenExtents) e
        state := fun _ => .sealed
        shared := fun key =>
          if (heldKeys objects).count key > 1 then some ((heldKeys objects).count key) else none } := by
  simp only [Allocator.rebuildDerived, foldl_incRefs, Allocator.foldl_addLive, liveTotal_dedup,
    zero_add, heldKeys, segKeys, Multiset.coe_count]

theorem rebuildDerived_inDraft {a : Allocator} {held : List (List Segment)}
    (unpinned : ∀ e, a.isPinned e = false) (small : capacity ≤ 16777216)
    (storable : Storable capacity a.n held) :
    InDraft capacity (heldKeys held) 0 (a.rebuildDerived held).healBitmap := by
  obtain ⟨live, shared, pins, count, bits⟩ :=
    foldl_healExtent (List.range (a.rebuildDerived held).n) (a.rebuildDerived held)
  rw [← Allocator.healBitmap] at live shared pins count bits
  rw [rebuildDerived_eq] at live shared pins count bits ⊢
  refine ⟨?_, ?_, ?_, ?_, ?_, storable.disjoint, storable.inside, ?_, ?_⟩
  · intro e
    rw [live]
    rfl
  · intro key member
    have held : 1 ≤ (heldKeys held).count key := Multiset.one_le_count_iff_mem.mpr member
    rw [Allocator.holders, shared]
    dsimp only
    split
    · rfl
    · rw [Option.getD_none]
      omega
  · intro key absent
    rw [shared]
    simp [Multiset.count_eq_zero.mpr absent]
  · intro key member nonempty
    have bound := heldBytes_le storable.disjoint storable.inside key.extent
    have positive := (heldBytes_pos_iff key.extent).mpr ⟨key, member, rfl, nonempty⟩
    have alive : 0 < UInt32.ofNat (heldBytes (heldKeys held) key.extent) := by
      rw [UInt32.lt_iff_toNat_lt, UInt32.toNat_ofNat_of_lt' (by simp only [UInt32.size]; omega)]
      exact positive
    rw [bits]
    simp [storable.extents key member, alive]
  · intro change member
    exact absurd member (Multiset.notMem_zero change)
  · intro e
    exact Nat.zero_le _
  · intro e
    exact (Allocator.isPinned_congr pins count e).trans (unpinned e)

/-- Recovery leaves exact counters, whatever the bitmap was, and so does every transaction behind it. -/
theorem recovery_accounted {a : Allocator} {pending : List SegKey} {stored : List (List Segment)}
    (unpinned : ∀ e, a.isPinned e = false) (small : capacity ≤ 16777216)
    (storable : Storable capacity a.n (localLists pending stored)) {world : World}
    (runs : ReachedFrom capacity
      ⟨(a.rebuildSegmentState pending stored).1, localLists pending stored⟩ world) :
    Accounted world :=
  (runs.inDraft small (rebuildDerived_inDraft unpinned small storable)).accounted small

def rotten : Allocator :=
  { Allocator.new 4 with bitmap := (Allocator.new 4).bitmap.setBit 2 }

theorem rotten_unpinned (e : Nat) : rotten.isPinned e = false := by
  simp [rotten, Allocator.new, Allocator.isPinned]

theorem storable_rotten : Storable 1044480 rotten.n (localLists [] [[firstSegment]]) := by
  have keys : heldKeys (localLists [] [[firstSegment]]) = {firstSegment.key} := by decide
  constructor
  · rw [keys]
    decide
  · rw [keys]
    decide
  · rw [keys]
    intro left leftOnly right rightOnly different
    rw [Multiset.mem_singleton] at leftOnly rightOnly
    exact absurd (leftOnly.trans rightOnly.symm) different

theorem recovery_accounted_rotten :
    Accounted (World.commit ⟨(rotten.rebuildSegmentState [] [[firstSegment]]).1,
      localLists [] [[firstSegment]]⟩ [.releaseObject [firstSegment]]) := by
  apply recovery_accounted rotten_unpinned (by decide) storable_rotten
  apply ReachedFrom.commit .start
  · exact ⟨by decide, trivial⟩
  · exact ⟨trivial, rfl⟩

end Rebuild

section Sweep

def sweepable (a : Allocator) (kept : List Nat) (id : Nat) : Bool :=
  decide (id ∉ kept) && a.bitmap.test id && !a.isPinned id

structure SweptTo (taken : List Nat) (before after : Allocator × Staged) : Prop where
  bits : ∀ e, after.1.bitmap.test e = (before.1.bitmap.test e && !decide (e ∈ taken))
  live : ∀ e, after.1.liveBytes e = if e ∈ taken then 0 else before.1.liveBytes e
  shared : after.1.shared = before.1.shared
  pinCount : after.1.pinCount = before.1.pinCount
  count : after.1.n = before.1.n
  draft : after.2 = { before.2 with
    refDec := before.2.refDec ++ taken, cleared := before.2.cleared ++ taken }

theorem SweptTo.refl (session : Allocator × Staged) : SweptTo [] session session := by
  constructor <;> simp

theorem SweptTo.trans {first second third : Allocator × Staged} {some more : List Nat}
    (left : SweptTo some first second) (right : SweptTo more second third) :
    SweptTo (some ++ more) first third where
  bits e := by
    rw [right.bits, left.bits, Bool.and_assoc, ← Bool.not_or, ← Bool.decide_or]
    simp only [List.mem_append]
  live e := by
    rw [right.live, left.live]
    by_cases later : e ∈ more
    · simp [later]
    · simp [later]
  shared := right.shared.trans left.shared
  pinCount := right.pinCount.trans left.pinCount
  count := right.count.trans left.count
  draft := by
    rw [right.draft, left.draft]
    simp only [List.append_assoc]

theorem releaseLeaked_cases (a : Allocator) (draft : Staged) (id : Nat) :
    (a.bitmap.test id = true ∧ a.isPinned id = false ∧
        ∃ after, Allocator.releaseLeaked (a, draft) id = (after, true) ∧
          SweptTo [id] (a, draft) after) ∨
      (¬(a.bitmap.test id = true ∧ a.isPinned id = false) ∧
        Allocator.releaseLeaked (a, draft) id = ((a, draft), false)) := by
  unfold Allocator.releaseLeaked
  dsimp only
  split
  · next refused =>
    refine .inr ⟨?_, rfl⟩
    intro both
    rcases refused with clear | pinned
    · exact absurd (both.1.symm.trans clear) (by decide)
    · exact absurd (pinned.symm.trans both.2) (by decide)
  · next fine =>
    rw [not_or, Bool.not_eq_false, Bool.not_eq_true] at fine
    refine .inl ⟨fine.1, fine.2, _, rfl, ?_, ?_, rfl, rfl, rfl, rfl⟩
    · intro e
      rw [Bitmap.test_clearBit, Bool.and_comm]
      simp only [List.mem_singleton]
    · intro e
      simp only [Function.update_apply, List.mem_singleton]

theorem SweptTo.sweepable {id other : Nat} {session after : Allocator × Staged}
    (swept : SweptTo [id] session after) (different : other ≠ id) (kept : List Nat) :
    sweepable after.1 kept other = sweepable session.1 kept other := by
  have pinned := Allocator.isPinned_congr swept.pinCount swept.count other
  simp [Alloc.sweepable, pinned, swept.bits, different]

theorem sweepLeaks_swept (kept : List Nat) {ids : List Nat} (distinct : ids.Nodup)
    (session : Allocator × Staged) (freed skipped : Nat) :
    let swept := Allocator.sweepLeaks kept ids (session, freed, skipped)
    SweptTo (ids.filter (sweepable session.1 kept)) session swept.1 ∧
      swept.2.1 = freed + (ids.filter (sweepable session.1 kept)).length := by
  induction ids generalizing session freed skipped with
  | nil => exact ⟨SweptTo.refl _, rfl⟩
  | cons id rest ih =>
    rw [List.nodup_cons] at distinct
    obtain ⟨unseen, distinct⟩ := distinct
    dsimp only
    rw [Allocator.sweepLeaks]
    by_cases member : id ∈ kept
    · have refused : sweepable session.1 kept id = false := by simp [sweepable, member]
      rw [if_pos member, List.filter_cons_of_neg (by simp [refused])]
      exact ih distinct session freed (skipped + 1)
    · rw [if_neg member]
      rcases releaseLeaked_cases session.1 session.2 id with
        ⟨held, idle, after, released, swept⟩ | ⟨refused, released⟩
      · have taken : sweepable session.1 kept id = true := by simp [sweepable, member, held, idle]
        have same : rest.filter (sweepable after.1 kept) = rest.filter (sweepable session.1 kept) := by
          apply List.filter_congr
          intro other inside
          exact swept.sweepable (fun equal => unseen (equal ▸ inside)) kept
        obtain ⟨more, counted⟩ := ih distinct after (freed + 1) skipped
        rw [same] at more counted
        rw [released, List.filter_cons_of_pos taken]
        refine ⟨swept.trans more, ?_⟩
        rw [counted, List.length_cons]
        omega
      · have refused : sweepable session.1 kept id = false := by
          rw [sweepable, Bool.and_assoc, Bool.and_eq_false_iff]
          refine .inr ?_
          rw [Bool.eq_false_iff]
          intro both
          simp only [Bool.and_eq_true, Bool.not_eq_true'] at both
          exact refused both
        rw [released, List.filter_cons_of_neg (by simp [refused])]
        exact ih distinct session freed skipped

theorem SweptTo.inDraft {keys : Multiset SegKey} {taken : List Nat} {before after : Allocator × Staged}
    (swept : SweptTo taken before after) (inDraft : InDraft capacity keys 0 before.1)
    (empty : ∀ e ∈ taken, heldBytes keys e = 0) : InDraft capacity keys 0 after.1 := by
  refine ⟨?_, ?_, ?_, ?_, ?_, inDraft.disjoint, inDraft.inside, inDraft.pendingBound, ?_⟩
  · intro e
    rw [swept.live]
    by_cases gone : e ∈ taken
    · rw [if_pos gone, empty e gone]
      rfl
    · rw [if_neg gone, inDraft.live]
  · simpa only [Allocator.holders, swept.shared] using inDraft.holders
  · simpa only [swept.shared] using inDraft.orphan
  · intro key member nonempty
    have positive := (heldBytes_pos_iff key.extent).mpr ⟨key, member, rfl, nonempty⟩
    have stays : key.extent ∉ taken := by
      intro gone
      have zero := empty _ gone
      omega
    simp [swept.bits, inDraft.bits key member nonempty, stays]
  · intro change member
    exact absurd member (Multiset.notMem_zero change)
  · intro e
    exact (Allocator.isPinned_congr swept.pinCount swept.count e).trans (inDraft.unpinned e)

theorem rollback_swept {a : Allocator} {taken : List Nat} {keys : Multiset SegKey}
    (inDraft : InDraft capacity keys 0 a) :
    InDraft capacity keys 0 (a.rollback { refDec := taken, cleared := taken }) ∧
      ∀ e, (a.rollback { refDec := taken, cleared := taken }).bitmap.test e =
        (a.bitmap.test e || decide (e ∈ taken)) := by
  obtain ⟨same, bits⟩ := Allocator.foldl_restoreCleared taken a
  obtain ⟨_, _, pins, count⟩ := rollback_states a { refDec := taken, cleared := taken }
  refine ⟨⟨?_, ?_, ?_, ?_, ?_, inDraft.disjoint, inDraft.inside, inDraft.pendingBound, ?_⟩, bits⟩
  · intro e
    exact (congrFun same.liveBytes e).trans (inDraft.live e)
  · intro key member
    rw [← inDraft.holders key member]
    exact congrArg (fun entry => Option.getD entry 1) (congrFun same.shared key)
  · intro key absent
    exact (congrFun same.shared key).trans (inDraft.orphan key absent)
  · intro key member nonempty
    have held := bits key.extent
    rw [inDraft.bits key member nonempty, Bool.true_or] at held
    exact held
  · intro change member
    exact absurd member (Multiset.notMem_zero change)
  · intro e
    exact (Allocator.isPinned_congr pins count e).trans (inDraft.unpinned e)

theorem repairLeaks_swept {keys : Multiset SegKey} {a : Allocator}
    (inDraft : InDraft capacity keys 0 a) (small : capacity ≤ 16777216) {reachable : List Nat}
    (covers : ∀ key ∈ keys, 0 < key.len → key.extent ∈ reachable) (kept : List Nat)
    (extentSize : Nat) (commits : Bool) :
    InDraft capacity keys 0 (repairLeaks a reachable kept extentSize commits).1 ∧
      ∀ e, (repairLeaks a reachable kept extentSize commits).1.bitmap.test e =
        (a.bitmap.test e &&
          !decide (commits = true ∧ e < a.n ∧ e ∉ reachable ∧ e ∉ kept)) := by
  have distinct : (a.leaks reachable).Nodup := List.Nodup.filter _ List.nodup_range
  obtain ⟨swept, freed⟩ := sweepLeaks_swept kept distinct (a, {}) 0 0
  rw [repairLeaks]
  generalize Allocator.sweepLeaks kept (a.leaks reachable) ((a, {}), 0, 0) = after at swept freed ⊢
  obtain ⟨⟨middle, draft⟩, number, skipped⟩ := after
  generalize taking : (a.leaks reachable).filter (sweepable a kept) = taken at swept freed
  have member : ∀ e, e ∈ taken ↔
      a.bitmap.test e = true ∧ e < a.n ∧ e ∉ reachable ∧ e ∉ kept := by
    intro e
    rw [← taking]
    simp only [Allocator.leaks, sweepable, List.mem_filter, List.mem_range, Bool.and_eq_true,
      decide_eq_true_eq, inDraft.unpinned e, Bool.not_false, and_true]
    tauto
  have empty : ∀ e ∈ taken, heldBytes keys e = 0 := by
    intro e gone
    by_contra positive
    obtain ⟨key, held, here, nonempty⟩ := (heldBytes_pos_iff e).mp (Nat.pos_of_ne_zero positive)
    exact ((member e).mp gone).2.2.1 (here ▸ covers key held nonempty)
  have inside := swept.inDraft inDraft empty
  have bits : ∀ e, middle.bitmap.test e =
      (a.bitmap.test e && !decide (e < a.n ∧ e ∉ reachable ∧ e ∉ kept)) := by
    intro e
    rw [swept.bits e]
    cases set : a.bitmap.test e with
    | false => rfl
    | true => simp [member, set]
  dsimp only at freed ⊢
  split
  · next none =>
    have nothing : taken = [] := List.length_eq_zero_iff.mp (by omega)
    refine ⟨inside, ?_⟩
    intro e
    rw [bits e]
    have outside : a.bitmap.test e = true → ¬(e < a.n ∧ e ∉ reachable ∧ e ∉ kept) := by
      intro set leaked
      have gone := (member e).mpr ⟨set, leaked⟩
      rw [nothing] at gone
      exact absurd gone List.not_mem_nil
    cases set : a.bitmap.test e with
    | false => rfl
    | true => simp [outside set]
  · have recorded : draft = { refDec := taken, cleared := taken } := swept.draft
    have settled := inside.toAllocDraft small draft
    obtain ⟨_, _, _, _, cleared⟩ := foldl_settleCleared draft.cleared inside.unpinned
    have kept : ∀ e, (middle.toAllocDraft draft).1.bitmap.test e = middle.bitmap.test e := by
      intro e
      refine (cleared e).trans ?_
      rw [recorded, swept.bits e]
      by_cases gone : e ∈ taken
      · simp [gone]
      · simp [gone]
    cases commits with
    | true =>
      refine ⟨settled, ?_⟩
      intro e
      rw [if_pos rfl, kept e, bits e]
      simp only [true_and]
    | false =>
      rw [if_neg (by decide)]
      rw [recorded] at settled kept ⊢
      obtain ⟨restored, set⟩ := rollback_swept settled
      refine ⟨restored, ?_⟩
      intro e
      rw [set e, kept e, swept.bits e]
      cases held : a.bitmap.test e with
      | false => simp [member, held]
      | true => simp

variable {a : Allocator} {pending : List SegKey} {stored : List (List Segment)} {world : World}

/-- A sweep behind a recovery takes the bits of the leaked extents, or of none if its transaction
fails, and the counters stay exact from then on. -/
theorem recovered_leaks_swept (unpinned : ∀ e, a.isPinned e = false) (small : capacity ≤ 16777216)
    (storable : Storable capacity a.n (localLists pending stored))
    (runs : ReachedFrom capacity
      ⟨(a.rebuildSegmentState pending stored).1, localLists pending stored⟩ world)
    {reachable : List Nat}
    (covers : ∀ key ∈ heldKeys world.held, 0 < key.len → key.extent ∈ reachable)
    (kept : List Nat) (extentSize : Nat) (commits : Bool) :
    let after := (repairLeaks world.alloc reachable kept extentSize commits).1
    (∀ e, after.bitmap.test e =
        (world.alloc.bitmap.test e &&
          !decide (commits = true ∧ e < world.alloc.n ∧ e ∉ reachable ∧ e ∉ kept))) ∧
      ∀ later, ReachedFrom capacity ⟨after, world.held⟩ later → Accounted later := by
  have inDraft := runs.inDraft small (rebuildDerived_inDraft unpinned small storable)
  obtain ⟨swept, bits⟩ := repairLeaks_swept inDraft small covers kept extentSize commits
  exact ⟨bits, fun later after => (after.inDraft small swept).accounted small⟩

theorem recovered_leaks_swept_rotten :
    (repairLeaks (rotten.rebuildSegmentState [] [[firstSegment]]).1
      (reachableExtents [[firstSegment]]) [] 1048576 true).1.bitmap.test 2 = false := by
  have keys : heldKeys (localLists [] [[firstSegment]]) = {firstSegment.key} := by decide
  have covers : ∀ key ∈ heldKeys (localLists [] [[firstSegment]]), 0 < key.len →
      key.extent ∈ reachableExtents [[firstSegment]] := by
    rw [keys]
    decide
  have swept := recovered_leaks_swept rotten_unpinned (by decide) storable_rotten .start covers []
    1048576 true
  exact (swept.1 2).trans (by decide)

end Sweep

end FastS3.Alloc
