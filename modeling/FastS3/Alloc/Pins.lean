import FastS3.Alloc.Draft

namespace FastS3.Alloc

open FastS3.Core Data

/-! Read pins: extents that readers use keep their bits until the last unpin.

Several drafts are open at a time. An extent that runs empty while it is pinned is
isolated, and so is a free extent that an allocation meets while it is pinned. -/

namespace Allocator

def pinOne (a : Allocator) (id : Nat) : Allocator :=
  if id < a.n then { a with pinCount := Function.update a.pinCount id (a.pinCount id + 1) } else a

def pin (a : Allocator) (ids : List Nat) : Allocator :=
  ids.foldl pinOne a

def releaseIsolatedIfIdle (a : Allocator) (id : Nat) : Allocator :=
  if a.isolated id then
    let a := { a with isolated := Function.update a.isolated id false }
    if a.isPinned id ∨ a.liveBytes id > 0 then a.isolate id
    else
      let a := if a.bitmap.test id then
          { a with bitmap := a.bitmap.clearBit id, totalFree := a.totalFree + 1 }
        else a
      { a with
        state := Function.update a.state id .free
        refcounts := Function.update a.refcounts id 0 }
  else a

def unpinOne (a : Allocator) (id : Nat) : Allocator :=
  if id ≥ a.n then a
  else
    let prev := a.pinCount id
    let a := { a with pinCount := Function.update a.pinCount id (prev - 1) }
    if prev = 1 then a.releaseIsolatedIfIdle id else a

def unpin (a : Allocator) (ids : List Nat) : Allocator :=
  ids.foldl unpinOne a

end Allocator

def touches (segs : List Segment) (e : Nat) : Bool :=
  segs.any fun s => s.extentId == e

def segBytes (segs : List Segment) (e : Nat) : Nat :=
  (segs.map fun s => if s.extentId = e then s.len else 0).sum

/-- The allocator with the open drafts and the stored objects. A draft that was never
used, or was committed, is empty. -/
structure PinWorld where
  alloc : Allocator
  drafts : Nat → Staged
  /-- Objects whose segments are accounted and not released. -/
  objects : List (List Segment)
  /-- Objects that an open draft has released; they are stored until it is committed. -/
  releasing : Nat → List (List Segment)
  /-- Extents of committed drafts that no object has used since. -/
  idle : Nat → Bool

inductive PinCall where
  | allocate (draft hint count : Nat)
  | allocateInRange (draft hint start count : Nat)
  | addObject (draft : Nat) (segs : List Segment)
  | releaseObject (draft : Nat) (segs : List Segment)
  | toAllocDraft (draft : Nat)
  | pin (ids : List Nat)
  | unpin (ids : List Nat)
deriving Repr, DecidableEq

namespace PinWorld

def new (n : Nat) : PinWorld where
  alloc := Allocator.new n
  drafts := fun _ => {}
  objects := []
  releasing := fun _ => []
  idle := fun _ => false

def setDraft (w : PinWorld) (draft : Nat) (session : Allocator × Staged) : PinWorld :=
  { w with alloc := session.1, drafts := Function.update w.drafts draft session.2 }

def run (w : PinWorld) : PinCall → PinWorld
  | .allocate draft hint count =>
    let (alloc, staged, _) := w.alloc.allocate (w.drafts draft) hint count
    w.setDraft draft (alloc, staged)
  | .allocateInRange draft hint start count =>
    let (alloc, staged, _) := w.alloc.allocateInRange (w.drafts draft) hint start count
    w.setDraft draft (alloc, staged)
  | .addObject draft segs =>
    { w.setDraft draft (w.alloc.addObject (w.drafts draft) segs) with
      objects := segs :: w.objects
      idle := fun e => w.idle e && !touches segs e }
  | .releaseObject draft segs =>
    { w.setDraft draft (w.alloc.releaseObject (w.drafts draft) segs) with
      objects := w.objects.erase segs
      releasing := Function.update w.releasing draft (segs :: w.releasing draft) }
  | .toAllocDraft draft =>
    { w.setDraft draft ((w.alloc.toAllocDraft (w.drafts draft)).1, {}) with
      releasing := Function.update w.releasing draft []
      idle := fun e => w.idle e || (decide (e ∈ (w.drafts draft).extents) &&
        decide (w.alloc.liveBytes e = 0) && !decide (e ∈ (w.drafts draft).cleared)) }
  | .pin ids => { w with alloc := w.alloc.pin ids }
  | .unpin ids => { w with alloc := w.alloc.unpin ids }

/-- What the callers of the allocator keep to: the live bytes of an extent fit their
counter, only accounted objects are released, and every unpin has its pin. -/
def Allowed (w : PinWorld) : PinCall → Prop
  | .addObject _ segs => ∀ e, ((segs :: w.objects).map (segBytes · e)).sum < 2 ^ 32
  | .releaseObject _ segs => segs ∈ w.objects
  | .unpin ids => ∀ e < w.alloc.n, ids.count e ≤ w.alloc.pinCount e
  | _ => True

/-- Segments are added to allocated extents that are not isolated, and a draft is
committed only when no extent that it emptied is allocated in another open draft. -/
def Careful (w : PinWorld) : PinCall → Prop
  | .addObject _ segs => ∀ s ∈ segs,
      w.alloc.bitmap.test s.extentId = true ∧ w.alloc.isolated s.extentId = false
  | .toAllocDraft draft => ∀ e ∈ (w.drafts draft).cleared, w.alloc.liveBytes e = 0 →
      ∀ other, other ≠ draft → e ∉ (w.drafts other).extents
  | _ => True

def Held (w : PinWorld) (e : Nat) : Prop :=
  (∃ segs ∈ w.objects, touches segs e = true) ∨
    ∃ draft, ∃ segs ∈ w.releasing draft, touches segs e = true

/-- The extent was allocated in an open draft, or in a committed one without being used
since. -/
def Drafted (w : PinWorld) (e : Nat) : Prop :=
  (∃ draft, e ∈ (w.drafts draft).extents) ∨ w.idle e = true

end PinWorld

namespace Allocator

theorem foldl_settleCleared_pins (ids : List Nat) (a : Allocator) :
    (ids.foldl settleCleared a).liveBytes = a.liveBytes ∧
      (ids.foldl settleCleared a).shared = a.shared ∧
      (ids.foldl settleCleared a).pinCount = a.pinCount ∧
      (ids.foldl settleCleared a).n = a.n ∧
      (∀ e, (ids.foldl settleCleared a).bitmap.test e =
        (a.bitmap.test e && !decide (e ∈ ids ∧ a.liveBytes e = 0 ∧ a.isPinned e = false))) ∧
      ∀ e, (ids.foldl settleCleared a).isolated e =
        (a.isolated e || decide (e ∈ ids ∧ a.liveBytes e = 0 ∧ a.isPinned e = true)) := by
  induction ids generalizing a with
  | nil => simp
  | cons id rest ih =>
    have step : (a.settleCleared id).liveBytes = a.liveBytes ∧
        (a.settleCleared id).shared = a.shared ∧ (a.settleCleared id).pinCount = a.pinCount ∧
        (a.settleCleared id).n = a.n ∧
        (∀ e, (a.settleCleared id).bitmap.test e =
          (a.bitmap.test e && !decide (e = id ∧ a.liveBytes e = 0 ∧ a.isPinned e = false))) ∧
        ∀ e, (a.settleCleared id).isolated e =
          (a.isolated e || decide (e = id ∧ a.liveBytes e = 0 ∧ a.isPinned e = true)) := by
      unfold settleCleared
      by_cases inUse : a.liveBytes id > 0
      · have nonzero : a.liveBytes id ≠ 0 := by
          intro zero
          rw [zero] at inUse
          exact absurd inUse (by decide)
        rw [if_pos inUse]
        refine ⟨rfl, rfl, rfl, rfl, ?_, ?_⟩
        · intro e
          by_cases same : e = id
          · simp [same, nonzero]
          · simp [same]
        · intro e
          by_cases same : e = id
          · simp [same, nonzero]
          · simp [same]
      · have zero : a.liveBytes id = 0 := by
          rw [← UInt32.toNat_inj]
          rw [gt_iff_lt, UInt32.lt_iff_toNat_lt] at inUse
          simpa using inUse
        rw [if_neg inUse]
        by_cases pinned : a.isPinned id = true
        · rw [if_pos pinned]
          refine ⟨rfl, rfl, rfl, rfl, ?_, ?_⟩
          · intro e
            by_cases same : e = id
            · simp [same, isolate, pinned]
            · simp [same, isolate]
          · intro e
            by_cases same : e = id
            · simp [same, isolate, pinned, zero]
            · simp [same, isolate]
        · rw [if_neg pinned]
          cases allocated : a.bitmap.test id with
          | true =>
            refine ⟨rfl, rfl, rfl, rfl, ?_, ?_⟩
            · intro e
              by_cases same : e = id
              · simp [same, Bitmap.test_clearBit, zero, pinned]
              · simp [same, Bitmap.test_clearBit]
            · intro e
              by_cases same : e = id
              · simp [same, pinned]
              · simp [same]
          | false =>
            refine ⟨rfl, rfl, rfl, rfl, ?_, ?_⟩
            · intro e
              by_cases same : e = id
              · simp [same, allocated]
              · simp [same]
            · intro e
              by_cases same : e = id
              · simp [same, pinned]
              · simp [same]
    obtain ⟨live, shared, pins, count, bits, isolated⟩ := step
    obtain ⟨liveRest, sharedRest, pinsRest, countRest, bitsRest, isolatedRest⟩ :=
      ih (a.settleCleared id)
    have pinned := isPinned_congr pins count
    rw [List.foldl_cons]
    refine ⟨liveRest.trans live, sharedRest.trans shared, pinsRest.trans pins,
      countRest.trans count, ?_, ?_⟩
    · intro e
      rw [bitsRest e, bits e, live, pinned, Bool.and_assoc, ← Bool.not_or, ← Bool.decide_or]
      simp only [List.mem_cons, or_and_right]
    · intro e
      rw [isolatedRest e, isolated e, live, pinned, Bool.or_assoc, ← Bool.decide_or]
      simp only [List.mem_cons, or_and_right]

/-- What `unpin` of one extent leaves alone. -/
structure Unpinned (a a' : Allocator) : Prop where
  liveBytes : a'.liveBytes = a.liveBytes
  shared : a'.shared = a.shared
  count : a'.n = a.n

theorem releaseIsolatedIfIdle_unpinned (a : Allocator) (id : Nat) :
    Unpinned a (a.releaseIsolatedIfIdle id) ∧ (a.releaseIsolatedIfIdle id).pinCount = a.pinCount := by
  unfold releaseIsolatedIfIdle
  split
  · simp only
    split
    · exact ⟨⟨rfl, rfl, rfl⟩, rfl⟩
    · split
      · exact ⟨⟨rfl, rfl, rfl⟩, rfl⟩
      · exact ⟨⟨rfl, rfl, rfl⟩, rfl⟩
  · exact ⟨⟨rfl, rfl, rfl⟩, rfl⟩

theorem releaseIsolatedIfIdle_idle {a : Allocator} {id : Nat} (isolated : a.isolated id = true)
    (unpinned : a.pinCount id = 0) (empty : a.liveBytes id = 0) (e : Nat) :
    (a.releaseIsolatedIfIdle id).bitmap.test e = (a.bitmap.test e && !decide (e = id)) ∧
      (a.releaseIsolatedIfIdle id).isolated e = (a.isolated e && !decide (e = id)) := by
  have free : ¬({ a with isolated := Function.update a.isolated id false }.isPinned id = true ∨
      a.liveBytes id > 0) := by
    simp [isPinned, unpinned, empty]
  unfold releaseIsolatedIfIdle
  rw [if_pos isolated]
  simp only [if_neg free]
  cases allocated : a.bitmap.test id with
  | true =>
    by_cases same : e = id
    · simp [same, Bitmap.test_clearBit]
    · simp [same, Bitmap.test_clearBit]
  | false =>
    by_cases same : e = id
    · simp [same, allocated]
    · simp [same]

end Allocator

/-- Isolated extents are pinned, empty, and in no open draft; the extents of open drafts
and those with live bytes are allocated. -/
structure PinSound (drafted : Nat → Prop) (a : Allocator) : Prop where
  inside : ∀ e, 0 < a.pinCount e → e < a.n
  isolated : ∀ e, a.isolated e = true →
    a.liveBytes e = 0 ∧ 0 < a.pinCount e ∧ ¬drafted e
  openBits : ∀ e, drafted e → a.bitmap.test e = true
  liveBits : ∀ e, a.liveBytes e ≠ 0 → a.bitmap.test e = true

namespace PinSound

variable {drafted : Nat → Prop} {a : Allocator}

theorem isPinned_iff (sound : PinSound drafted a) (e : Nat) :
    a.isPinned e = true ↔ 0 < a.pinCount e := by
  simp only [Allocator.isPinned, Bool.and_eq_true, decide_eq_true_eq]
  exact ⟨fun both => both.2, fun pinned => ⟨sound.inside e pinned, pinned⟩⟩

theorem unpinOne_spec (sound : PinSound drafted a) {id : Nat} (matched : id < a.n → 0 < a.pinCount id)
    (e : Nat) :
    (a.unpinOne id).pinCount e = (if e = id ∧ id < a.n then a.pinCount e - 1 else a.pinCount e) ∧
      (a.unpinOne id).bitmap.test e =
        (a.bitmap.test e && !decide (e = id ∧ a.isolated e = true ∧ a.pinCount e = 1)) ∧
      (a.unpinOne id).isolated e =
        (a.isolated e && !decide (e = id ∧ a.isolated e = true ∧ a.pinCount e = 1)) := by
  unfold Allocator.unpinOne
  by_cases outside : id ≥ a.n
  · have apart : ¬(e = id ∧ a.isolated e = true ∧ a.pinCount e = 1) := by
      rintro ⟨rfl, isolated, _⟩
      have inside := sound.inside e (sound.isolated e isolated).2.1
      omega
    rw [if_pos outside, if_neg (by omega)]
    simp [apart]
  · rw [if_neg outside]
    have inside : id < a.n := by omega
    simp only
    by_cases last : a.pinCount id = 1
    · rw [if_pos last]
      obtain ⟨_, pins⟩ := Allocator.releaseIsolatedIfIdle_unpinned
        { a with pinCount := Function.update a.pinCount id (a.pinCount id - 1) } id
      cases isolated : a.isolated id with
      | true =>
        obtain ⟨bits, isolation⟩ := Allocator.releaseIsolatedIfIdle_idle
          (a := { a with pinCount := Function.update a.pinCount id (a.pinCount id - 1) })
          isolated (by simp [last]) (sound.isolated id isolated).1 e
        rw [pins, bits, isolation]
        by_cases same : e = id
        · simp [same, inside, isolated, last]
        · simp [same]
      | false =>
        have kept : Allocator.releaseIsolatedIfIdle
            { a with pinCount := Function.update a.pinCount id (a.pinCount id - 1) } id =
              { a with pinCount := Function.update a.pinCount id (a.pinCount id - 1) } := by
          simp [Allocator.releaseIsolatedIfIdle, isolated]
        rw [kept]
        by_cases same : e = id
        · simp [same, inside, isolated]
        · simp [same]
    · rw [if_neg last]
      by_cases same : e = id
      · simp [same, inside, last]
      · simp [same]

theorem unpinOne (sound : PinSound drafted a) {id : Nat} (matched : id < a.n → 0 < a.pinCount id) :
    PinSound drafted (a.unpinOne id) ∧ Allocator.Unpinned a (a.unpinOne id) := by
  have frame : Allocator.Unpinned a (a.unpinOne id) := by
    unfold Allocator.unpinOne
    split
    · exact ⟨rfl, rfl, rfl⟩
    · simp only
      split
      · have released := (Allocator.releaseIsolatedIfIdle_unpinned
          { a with pinCount := Function.update a.pinCount id (a.pinCount id - 1) } id).1
        exact ⟨released.liveBytes, released.shared, released.count⟩
      · exact ⟨rfl, rfl, rfl⟩
  refine ⟨⟨?_, ?_, ?_, ?_⟩, frame⟩
  · intro e pinned
    obtain ⟨pins, _, _⟩ := sound.unpinOne_spec matched e
    rw [pins] at pinned
    rw [frame.count]
    apply sound.inside e
    split at pinned
    · omega
    · exact pinned
  · intro e isolated
    obtain ⟨pins, _, isolation⟩ := sound.unpinOne_spec matched e
    rw [isolation, Bool.and_eq_true, Bool.not_eq_true', decide_eq_false_iff_not] at isolated
    obtain ⟨before, stays⟩ := isolated
    obtain ⟨empty, pinned, apart⟩ := sound.isolated e before
    refine ⟨by rw [frame.liveBytes]; exact empty, ?_, apart⟩
    rw [pins]
    split
    · next here =>
        have more : a.pinCount e ≠ 1 := fun last => stays ⟨here.1, before, last⟩
        omega
    · exact pinned
  · intro e here
    obtain ⟨_, bits, _⟩ := sound.unpinOne_spec matched e
    have notIsolated : a.isolated e ≠ true := fun isolated => (sound.isolated e isolated).2.2 here
    rw [bits, sound.openBits e here]
    simp [notIsolated]
  · intro e nonempty
    obtain ⟨_, bits, _⟩ := sound.unpinOne_spec matched e
    rw [frame.liveBytes] at nonempty
    have notIsolated : a.isolated e ≠ true := fun isolated => nonempty (sound.isolated e isolated).1
    rw [bits, sound.liveBits e nonempty]
    simp [notIsolated]

theorem unpin (sound : PinSound drafted a) {ids : List Nat}
    (matched : ∀ e < a.n, ids.count e ≤ a.pinCount e) :
    PinSound drafted (a.unpin ids) ∧ Allocator.Unpinned a (a.unpin ids) ∧
      (∀ e, (a.unpin ids).bitmap.test e = true → a.bitmap.test e = true) ∧
      (∀ e, a.bitmap.test e = true → (a.unpin ids).bitmap.test e = false → a.isolated e = true) ∧
      ∀ e, a.isolated e = true → (a.unpin ids).isolated e = true ∨ (a.unpin ids).bitmap.test e = false := by
  induction ids generalizing a with
  | nil =>
    refine ⟨sound, ⟨rfl, rfl, rfl⟩, fun e set => set, ?_, fun e isolated => .inl isolated⟩
    intro e set clear
    rw [Allocator.unpin, List.foldl_nil, set] at clear
    cases clear
  | cons id ids ih =>
    have here : id < a.n → 0 < a.pinCount id := by
      intro inside
      have enough := matched id inside
      rw [List.count_cons_self] at enough
      omega
    obtain ⟨soundNext, frame⟩ := sound.unpinOne here
    have spec := fun e => sound.unpinOne_spec here e
    have matchedNext : ∀ e < (a.unpinOne id).n, ids.count e ≤ (a.unpinOne id).pinCount e := by
      intro e inside
      rw [frame.count] at inside
      have enough := matched e inside
      rw [(spec e).1]
      by_cases same : e = id
      · subst same
        rw [List.count_cons_self] at enough
        rw [if_pos ⟨rfl, inside⟩]
        omega
      · rw [List.count_cons_of_ne (Ne.symm same)] at enough
        rw [if_neg (fun both => same both.1)]
        exact enough
    obtain ⟨soundLast, frameLast, shrinks, frees, stays⟩ := ih soundNext matchedNext
    have unfolded : a.unpin (id :: ids) = (a.unpinOne id).unpin ids := rfl
    rw [unfolded]
    refine ⟨soundLast, ⟨frameLast.liveBytes.trans frame.liveBytes,
      frameLast.shared.trans frame.shared, frameLast.count.trans frame.count⟩, ?_, ?_, ?_⟩
    · intro e set
      have middle := shrinks e set
      rw [(spec e).2.1, Bool.and_eq_true] at middle
      exact middle.1
    · intro e set clear
      cases middle : (a.unpinOne id).bitmap.test e with
      | true =>
        have isolated := frees e middle clear
        rw [(spec e).2.2, Bool.and_eq_true] at isolated
        exact isolated.1
      | false =>
        rw [(spec e).2.1, set, Bool.true_and, Bool.not_eq_false', decide_eq_true_eq] at middle
        exact middle.2.1
    · intro e isolated
      cases middle : (a.unpinOne id).isolated e with
      | true => exact stays e middle
      | false =>
        rw [(spec e).2.2, isolated, Bool.true_and, Bool.not_eq_false', decide_eq_true_eq] at middle
        right
        cases last : ((a.unpinOne id).unpin ids).bitmap.test e with
        | false => rfl
        | true =>
          have set := shrinks e last
          rw [(spec e).2.1, decide_eq_true ⟨middle.1, isolated, middle.2.2⟩] at set
          simp at set

end PinSound

section Objects

variable {a : Allocator} (draft : Staged)

theorem segBytes_cons (s : Segment) (segs : List Segment) (e : Nat) :
    segBytes (s :: segs) e = (if s.extentId = e then s.len else 0) + segBytes segs e := by
  simp [segBytes]

variable {segs : List Segment} {rest : Nat → Nat}

theorem segBytes_eq_zero {e : Nat} (apart : touches segs e = false) : segBytes segs e = 0 := by
  induction segs with
  | nil => rfl
  | cons s segs ih =>
    simp only [touches, List.any_cons, Bool.or_eq_false_iff, beq_eq_false_iff_ne] at apart
    rw [segBytes_cons, if_neg apart.1, ih apart.2]

theorem liveTotal_segs (segs : List Segment) (e : Nat) :
    liveTotal (segs.map fun s => (s.extentId, s.len)) e = UInt32.ofNat (segBytes segs e) := by
  induction segs with
  | nil => simp [liveTotal, segBytes]
  | cons s segs ih =>
    have split : (s :: segs).map (fun s => (s.extentId, s.len)) =
        [(s.extentId, s.len)] ++ segs.map fun s => (s.extentId, s.len) := rfl
    rw [split, liveTotal_append, liveTotal_singleton, ih, segBytes_cons, UInt32.ofNat_add]
    split
    · rfl
    · rfl

theorem uncovered_nothing (segs : List Segment) :
    uncovered (fun _ => 0) segs = segs.map fun s => (s.extentId, s.len) := by
  induction segs with
  | nil => rfl
  | cons s segs ih => simp [uncovered, ih]

structure KeepsPins (before after : Allocator × Staged) : Prop where
  bitmap : after.1.bitmap = before.1.bitmap
  pinCount : after.1.pinCount = before.1.pinCount
  isolated : after.1.isolated = before.1.isolated
  count : after.1.n = before.1.n
  shared : after.1.shared = before.1.shared
  alloc : after.2.alloc = before.2.alloc
  inflight : after.2.inflight = before.2.inflight

theorem KeepsPins.trans {first second third : Allocator × Staged} (left : KeepsPins first second)
    (right : KeepsPins second third) : KeepsPins first third where
  bitmap := right.bitmap.trans left.bitmap
  pinCount := right.pinCount.trans left.pinCount
  isolated := right.isolated.trans left.isolated
  count := right.count.trans left.count
  shared := right.shared.trans left.shared
  alloc := right.alloc.trans left.alloc
  inflight := right.inflight.trans left.inflight

theorem addObject_pins {draft : Staged} (segs : List Segment) (noInflight : draft.inflight = []) :
    KeepsPins (a, draft) (a.addObject draft segs) ∧
      (a.addObject draft segs).2.cleared = draft.cleared ∧
      ∀ e, (a.addObject draft segs).1.liveBytes e =
        a.liveBytes e + UInt32.ofNat (segBytes segs e) := by
  unfold Allocator.addObject
  split
  · next empty =>
      subst empty
      exact ⟨⟨rfl, rfl, rfl, rfl, rfl, rfl, rfl⟩, rfl, by simp [segBytes]⟩
  · have none : (fun key => draft.inflight.count key) = fun _ => 0 := by
      funext key
      rw [noInflight, List.count_nil]
    rw [none, Allocator.addSegments_eq, Allocator.noteRefs_eq, uncovered_nothing,
      Allocator.foldl_addLive, Allocator.foldl_incRef]
    refine ⟨⟨rfl, rfl, rfl, rfl, rfl, rfl, rfl⟩, rfl, ?_⟩
    intro e
    simp only [liveTotal_segs]

theorem decLive_pins {id len : Nat}
    (live : ∀ e, a.liveBytes e = UInt32.ofNat ((if id = e then len else 0) + rest e))
    (fits : ∀ e, (if id = e then len else 0) + rest e < 2 ^ 32) :
    KeepsPins (a, draft) (Allocator.decLive (a, draft) id len) ∧
      (∀ e, (Allocator.decLive (a, draft) id len).1.liveBytes e = UInt32.ofNat (rest e)) ∧
      (Allocator.decLive (a, draft) id len).2.cleared =
        draft.cleared ++ if rest id = 0 then [id] else [] := by
  have total := fits id
  rw [if_pos rfl] at total
  have prev : (a.liveBytes id).toNat = len + rest id := by
    rw [live id, if_pos rfl, UInt32.toNat_ofNat', Nat.mod_eq_of_lt total]
  have amount : (UInt32.ofNat len).toNat = len := by
    rw [UInt32.toNat_ofNat', Nat.mod_eq_of_lt (by omega)]
  have enough : ¬a.liveBytes id < UInt32.ofNat len := by
    rw [UInt32.lt_iff_toNat_lt, prev, amount]
    omega
  have left : ∀ e, Function.update a.liveBytes id (a.liveBytes id - UInt32.ofNat len) e =
      UInt32.ofNat (rest e) := by
    intro e
    by_cases same : e = id
    · subst same
      rw [Function.update_self, live e, if_pos rfl, UInt32.ofNat_add, add_sub_cancel_left]
    · rw [Function.update_of_ne same, live e, if_neg (Ne.symm same), Nat.zero_add]
  have more : a.liveBytes id > UInt32.ofNat len ↔ rest id ≠ 0 := by
    rw [gt_iff_lt, UInt32.lt_iff_toNat_lt, prev, amount]
    omega
  simp only [Allocator.decLive, if_neg enough]
  by_cases emptied : rest id = 0
  · have last : ¬a.liveBytes id > UInt32.ofNat len := fun above => more.mp above emptied
    simp only [if_neg last, if_pos emptied]
    exact ⟨⟨rfl, rfl, rfl, rfl, rfl, rfl, rfl⟩, left, trivial⟩
  · simp only [if_pos (more.mpr emptied), if_neg emptied, List.append_nil]
    exact ⟨⟨rfl, rfl, rfl, rfl, rfl, rfl, rfl⟩, left, trivial⟩

theorem releaseSegments_pins (unshared : ∀ key, a.shared key = none)
    (live : ∀ e, a.liveBytes e = UInt32.ofNat (segBytes segs e + rest e))
    (fits : ∀ e, segBytes segs e + rest e < 2 ^ 32) :
    KeepsPins (a, draft) (segs.foldl Allocator.releaseSegment (a, draft)) ∧
      (∀ e, (segs.foldl Allocator.releaseSegment (a, draft)).1.liveBytes e = UInt32.ofNat (rest e)) ∧
      (∀ e ∈ (segs.foldl Allocator.releaseSegment (a, draft)).2.cleared,
        e ∈ draft.cleared ∨ touches segs e = true) ∧
      (∀ e ∈ draft.cleared, e ∈ (segs.foldl Allocator.releaseSegment (a, draft)).2.cleared) ∧
      ∀ e, touches segs e = true → rest e = 0 →
        e ∈ (segs.foldl Allocator.releaseSegment (a, draft)).2.cleared := by
  induction segs generalizing a draft with
  | nil =>
    refine ⟨⟨rfl, rfl, rfl, rfl, rfl, rfl, rfl⟩, ?_, fun e member => .inl member,
      fun e member => member, ?_⟩
    · simpa [segBytes] using live
    · intro e touched
      cases touched
  | cons s segs ih =>
    have first : Allocator.releaseSegment (a, draft) s =
        Allocator.decLive (a, draft) s.extentId s.len := by
      simp only [Allocator.releaseSegment, unshared s.key]
    simp only [segBytes_cons, Nat.add_assoc] at live fits
    obtain ⟨keeps, lowered, cleared⟩ := decLive_pins draft live fits
    rw [List.foldl_cons, first]
    revert keeps lowered cleared
    generalize Allocator.decLive (a, draft) s.extentId s.len = middle
    obtain ⟨b, log⟩ := middle
    intro keeps lowered cleared
    obtain ⟨keepsRest, liveRest, onlyRest, moreRest, allRest⟩ := ih (a := b) log
      (fun key => (congrFun keeps.shared key).trans (unshared key)) lowered
      (fun e => by have bound := fits e; omega)
    refine ⟨keeps.trans keepsRest, liveRest, ?_, ?_, ?_⟩
    · intro e member
      rcases onlyRest e member with before | touched
      · rw [cleared, List.mem_append] at before
        rcases before with old | new
        · exact .inl old
        · split at new
          · rw [List.mem_singleton] at new
            exact .inr (by simp [touches, new])
          · cases new
      · right
        simp only [touches, List.any_cons, Bool.or_eq_true]
        exact .inr touched
    · intro e member
      apply moreRest
      rw [cleared]
      exact List.mem_append_left _ member
    · intro e touched alone
      by_cases later : touches segs e = true
      · exact allRest e later alone
      · have here : s.extentId = e := by
          simp only [touches, List.any_cons, Bool.or_eq_true, beq_iff_eq] at touched later
          exact touched.resolve_right later
        apply moreRest
        rw [cleared, here, segBytes_eq_zero (by simpa using later), alone]
        simp

theorem releaseObject_pins (unshared : ∀ key, a.shared key = none)
    (live : ∀ e, a.liveBytes e = UInt32.ofNat (segBytes segs e + rest e))
    (fits : ∀ e, segBytes segs e + rest e < 2 ^ 32) :
    KeepsPins (a, draft) (a.releaseObject draft segs) ∧
      (∀ e, (a.releaseObject draft segs).1.liveBytes e = UInt32.ofNat (rest e)) ∧
      (∀ e ∈ (a.releaseObject draft segs).2.cleared, e ∈ draft.cleared ∨ touches segs e = true) ∧
      (∀ e ∈ draft.cleared, e ∈ (a.releaseObject draft segs).2.cleared) ∧
      ∀ e, touches segs e = true → rest e = 0 → e ∈ (a.releaseObject draft segs).2.cleared := by
  have released := releaseSegments_pins draft unshared live fits
  unfold Allocator.releaseObject
  revert released
  generalize segs.foldl Allocator.releaseSegment (a, draft) = middle
  intro released
  obtain ⟨keeps, lowered, only, more, all⟩ := released
  obtain ⟨dropped, result⟩ := Allocator.dropRefs_eq middle.1 middle.2 (seenExtents segs)
  rw [result, Allocator.foldl_decRef]
  exact ⟨keeps.trans ⟨rfl, rfl, rfl, rfl, rfl, rfl, rfl⟩, lowered, only, more, all⟩

end Objects

namespace PinWorld

def objectBytes (objects : List (List Segment)) (e : Nat) : Nat :=
  (objects.map (segBytes · e)).sum

def InOpenDraft (w : PinWorld) (e : Nat) : Prop :=
  ∃ draft, e ∈ (w.drafts draft).extents

structure Sound (w : PinWorld) : Prop where
  pins : PinSound w.InOpenDraft w.alloc
  unshared : ∀ key, w.alloc.shared key = none
  noInflight : ∀ draft, (w.drafts draft).inflight = []
  live : ∀ e, w.alloc.liveBytes e = UInt32.ofNat (objectBytes w.objects e)
  fits : ∀ e, objectBytes w.objects e < 2 ^ 32
  /-- An allocated extent is isolated or has a reason to be allocated. -/
  used : ∀ e, w.alloc.bitmap.test e = true → w.alloc.isolated e = true ∨ w.Drafted e ∨
    (∃ segs ∈ w.objects, touches segs e = true) ∨ ∃ draft, e ∈ (w.drafts draft).cleared
  cleared : ∀ draft, ∀ e ∈ (w.drafts draft).cleared,
    ∃ segs ∈ w.releasing draft, touches segs e = true

variable {w : PinWorld}

theorem new_sound (n : Nat) : (new n).Sound := by
  refine ⟨⟨?_, ?_, ?_, ?_⟩, ?_, ?_, ?_, ?_, ?_, ?_⟩
  all_goals simp [new, Allocator.new, InOpenDraft, Staged.extents, objectBytes]

theorem Sound.object_of_live (sound : w.Sound) {e : Nat} (nonempty : w.alloc.liveBytes e ≠ 0) :
    ∃ segs ∈ w.objects, touches segs e = true := by
  by_contra none
  have zero : objectBytes w.objects e = 0 := by
    apply List.sum_eq_zero
    intro bytes member
    obtain ⟨segs, inside, rfl⟩ := List.mem_map.mp member
    apply segBytes_eq_zero
    rw [Bool.eq_false_iff]
    exact fun touched => none ⟨segs, inside, touched⟩
  rw [sound.live e, zero] at nonempty
  exact nonempty rfl

/-- An allocation that keeps `taken` for the draft and isolates the pinned extents
`parked`. -/
theorem Sound.allocated (sound : w.Sound) {draft : Nat} {after : Allocator} {staged : Staged}
    {taken parked : List Nat} (wasClear : ∀ id ∈ taken ++ parked, w.alloc.bitmap.test id = false)
    (unpinned : ∀ id ∈ taken, w.alloc.isPinned id = false)
    (pinned : ∀ id ∈ parked, w.alloc.isPinned id = true)
    (bits : ∀ e, after.bitmap.test e = (w.alloc.bitmap.test e || decide (e ∈ taken ++ parked)))
    (isolated : ∀ e, after.isolated e = (w.alloc.isolated e || decide (e ∈ parked)))
    (liveBytes : after.liveBytes = w.alloc.liveBytes) (pinCount : after.pinCount = w.alloc.pinCount)
    (count : after.n = w.alloc.n) (shared : after.shared = w.alloc.shared)
    (extents : ∀ e, e ∈ staged.extents ↔ e ∈ (w.drafts draft).extents ∨ e ∈ taken)
    (cleared : staged.cleared = (w.drafts draft).cleared)
    (inflight : staged.inflight = (w.drafts draft).inflight) :
    (w.setDraft draft (after, staged)).Sound := by
  have opened : ∀ e, (w.setDraft draft (after, staged)).InOpenDraft e ↔ w.InOpenDraft e ∨ e ∈ taken := by
    intro e
    constructor
    · rintro ⟨other, member⟩
      by_cases same : other = draft
      · subst same
        simp only [setDraft, Function.update_self] at member
        rcases (extents e).mp member with old | new
        · exact .inl ⟨other, old⟩
        · exact .inr new
      · simp only [setDraft, Function.update_of_ne same] at member
        exact .inl ⟨other, member⟩
    · rintro (⟨other, member⟩ | new)
      · by_cases same : other = draft
        · subst same
          exact ⟨other, by simpa [setDraft] using (extents e).mpr (.inl member)⟩
        · exact ⟨other, by simpa [setDraft, same] using member⟩
      · exact ⟨draft, by simpa [setDraft] using (extents e).mpr (.inr new)⟩
  have empty : ∀ e ∈ taken ++ parked, w.alloc.liveBytes e = 0 := by
    intro e member
    by_contra nonempty
    have set := sound.pins.liveBits e nonempty
    rw [wasClear e member] at set
    cases set
  have clearedSame : ∀ other, ((w.setDraft draft (after, staged)).drafts other).cleared =
      (w.drafts other).cleared := by
    intro other
    by_cases same : other = draft
    · subst same
      simpa [setDraft] using cleared
    · simp [setDraft, same]
  refine ⟨⟨?_, ?_, ?_, ?_⟩, ?_, ?_, ?_, sound.fits, ?_, ?_⟩
  · intro e held
    simp only [setDraft, pinCount, count] at held ⊢
    exact sound.pins.inside e held
  · intro e aside
    simp only [setDraft, isolated, Bool.or_eq_true, decide_eq_true_eq] at aside
    simp only [setDraft, liveBytes, pinCount]
    have notTaken : 0 < w.alloc.pinCount e → e ∉ taken := by
      intro held member
      have held := (sound.pins.isPinned_iff e).mpr held
      rw [unpinned e member] at held
      cases held
    rcases aside with old | new
    · obtain ⟨live, held, closed⟩ := sound.pins.isolated e old
      refine ⟨live, held, ?_⟩
      intro stillOpen
      rcases (opened e).mp stillOpen with inside | member
      · exact closed inside
      · exact notTaken held member
    · have member : e ∈ taken ++ parked := List.mem_append_right _ new
      have held := (sound.pins.isPinned_iff e).mp (pinned e new)
      refine ⟨empty e member, held, ?_⟩
      intro stillOpen
      rcases (opened e).mp stillOpen with inside | also
      · have set := sound.pins.openBits e inside
        rw [wasClear e member] at set
        cases set
      · exact notTaken held also
  · intro e inside
    rw [opened] at inside
    simp only [setDraft, bits, Bool.or_eq_true, decide_eq_true_eq]
    rcases inside with old | new
    · exact .inl (sound.pins.openBits e old)
    · exact .inr (List.mem_append_left _ new)
  · intro e nonempty
    simp only [setDraft, liveBytes] at nonempty
    simp only [setDraft, bits, Bool.or_eq_true]
    exact .inl (sound.pins.liveBits e nonempty)
  · intro key
    simp only [setDraft, shared]
    exact sound.unshared key
  · intro other
    by_cases same : other = draft
    · subst same
      simpa [setDraft] using inflight.trans (sound.noInflight other)
    · simpa [setDraft, same] using sound.noInflight other
  · intro e
    simp only [setDraft, liveBytes]
    exact sound.live e
  · intro e set
    simp only [setDraft, bits, Bool.or_eq_true, decide_eq_true_eq, List.mem_append] at set
    rcases set with old | new | new
    · rcases sound.used e old with aside | drafted | object | ⟨other, member⟩
      · exact .inl (by simp [setDraft, isolated, aside])
      · refine .inr (.inl ?_)
        rcases drafted with inside | unused
        · exact .inl ((opened e).mpr (.inl inside))
        · exact .inr unused
      · exact .inr (.inr (.inl object))
      · exact .inr (.inr (.inr ⟨other, by rw [clearedSame]; exact member⟩))
    · exact .inr (.inl (.inl ((opened e).mpr (.inr new))))
    · exact .inl (by simp [setDraft, isolated, new])
  · intro other e member
    rw [clearedSame] at member
    exact sound.cleared other e member

theorem Sound.allocate (sound : w.Sound) (draft hint count : Nat) :
    (w.run (.allocate draft hint count)).Sound := by
  obtain ⟨middle, taken, parked, _, took, ⟨_, result⟩ | ⟨_, back, gave, result⟩⟩ :=
    w.alloc.allocate_cases (w.drafts draft) hint count
  · simp only [run, result]
    have nodup := List.nodup_append.mp took.nodup
    apply sound.allocated took.wasClear took.unpinned
      took.pinned took.bits took.isolated took.liveBytes took.pinCount took.count took.shared
    · intro e
      simp only [Staged.extents, List.flatMap_append, List.mem_append]
      rw [mem_compressRanges nodup.1]
    · rfl
    · rfl
  · simp only [run, result]
    have nodup := List.nodup_append.mp took.nodup
    have onlyParked : ∀ e, back.bitmap.test e =
        (w.alloc.bitmap.test e || decide (e ∈ [] ++ parked)) := by
      intro e
      rw [gave.bits e, took.bits e, List.nil_append]
      by_cases here : e ∈ taken
      · have clear := took.wasClear e (List.mem_append_left _ here)
        have notParked : e ∉ parked := fun there => nodup.2.2 e here e there rfl
        simp [here, clear, notParked]
      · simp [here]
    have live : back.liveBytes = w.alloc.liveBytes := by
      funext e
      rw [gave.liveBytes e, took.liveBytes]
      split
      · next here =>
          by_contra nonempty
          have set := sound.pins.liveBits e (Ne.symm nonempty)
          rw [took.wasClear e (List.mem_append_left _ here)] at set
          cases set
      · rfl
    apply @Sound.allocated w sound draft back (w.drafts draft) [] parked
    · intro id member
      exact took.wasClear id (List.mem_append_right _ member)
    · intro id member
      cases member
    · exact took.pinned
    · exact onlyParked
    · intro e
      rw [gave.isolated, took.isolated e]
    · exact live
    · exact gave.pinCount.trans took.pinCount
    · exact gave.count.trans took.count
    · exact gave.shared.trans took.shared
    · simp
    · rfl
    · rfl

theorem Sound.allocateInRange (sound : w.Sound) (draft hint start count : Nat) :
    (w.run (.allocateInRange draft hint start count)).Sound := by
  obtain ⟨after, taken, parked, _, took, result⟩ :=
    w.alloc.allocateInRange_cases (w.drafts draft) hint start count
  simp only [run, result]
  apply sound.allocated took.wasClear took.unpinned took.pinned took.bits took.isolated took.liveBytes took.pinCount took.count took.shared
  · intro e
    cases taken with
    | none => simp [Staged.extents]
    | some id => simp [Staged.extents, rangeIds]
  · rfl
  · rfl

theorem inOpenDraft_setDraft {draft : Nat} {session : Allocator × Staged}
    (alloc : session.2.alloc = (w.drafts draft).alloc) (e : Nat) :
    (w.setDraft draft session).InOpenDraft e ↔ w.InOpenDraft e := by
  have same : ∀ other, ((w.setDraft draft session).drafts other).extents =
      (w.drafts other).extents := by
    intro other
    by_cases here : other = draft
    · subst here
      simp [setDraft, Staged.extents, alloc]
    · simp [setDraft, here]
  simp only [InOpenDraft, same]

theorem Sound.addObject (sound : w.Sound) {draft : Nat} {segs : List Segment}
    (allowed : w.Allowed (.addObject draft segs)) (careful : w.Careful (.addObject draft segs)) :
    (w.run (.addObject draft segs)).Sound := by
  obtain ⟨keeps, cleared, live⟩ := addObject_pins (a := w.alloc) segs (sound.noInflight draft)
  have opened := inOpenDraft_setDraft (w := w) keeps.alloc
  have allocatedHere : ∀ e, touches segs e = true →
      w.alloc.bitmap.test e = true ∧ w.alloc.isolated e = false := by
    intro e touched
    obtain ⟨s, member, here⟩ := List.any_eq_true.mp touched
    rw [← eq_of_beq here]
    exact careful s member
  have liveOutside : ∀ e, touches segs e = false →
      (w.alloc.addObject (w.drafts draft) segs).1.liveBytes e = w.alloc.liveBytes e := by
    intro e apart
    rw [live e, segBytes_eq_zero apart]
    simp
  refine ⟨⟨?_, ?_, ?_, ?_⟩, ?_, ?_, ?_, allowed, ?_, ?_⟩
  all_goals simp only [run]
  · intro e held
    simp only [setDraft, keeps.pinCount, keeps.count] at held ⊢
    exact sound.pins.inside e held
  · intro e aside
    simp only [setDraft, keeps.isolated] at aside
    obtain ⟨empty, held, closed⟩ := sound.pins.isolated e aside
    have apart : touches segs e = false := by
      rw [Bool.eq_false_iff]
      intro touched
      rw [(allocatedHere e touched).2] at aside
      cases aside
    refine ⟨?_, ?_, fun stillOpen => closed ((opened e).mp stillOpen)⟩
    · simpa [setDraft, liveOutside e apart] using empty
    · simpa [setDraft, keeps.pinCount] using held
  · intro e inside
    simpa [setDraft, keeps.bitmap] using sound.pins.openBits e ((opened e).mp inside)
  · intro e nonempty
    simp only [setDraft, keeps.bitmap]
    cases touched : touches segs e with
    | true => exact (allocatedHere e touched).1
    | false =>
      simp only [setDraft, liveOutside e touched] at nonempty
      exact sound.pins.liveBits e nonempty
  · intro key
    simpa [setDraft, keeps.shared] using sound.unshared key
  · intro other
    by_cases same : other = draft
    · subst same
      simpa [setDraft] using keeps.inflight.trans (sound.noInflight other)
    · simpa [setDraft, same] using sound.noInflight other
  · intro e
    simp only [setDraft, live e, sound.live e, objectBytes, List.map_cons, List.sum_cons]
    rw [← UInt32.ofNat_add, Nat.add_comm]
  · intro e set
    simp only [setDraft, keeps.bitmap] at set
    cases touched : touches segs e with
    | true => exact .inr (.inr (.inl ⟨segs, List.mem_cons_self, touched⟩))
    | false =>
      rcases sound.used e set with aside | drafted | ⟨other, inside, touchedOther⟩ | ⟨other, member⟩
      · exact .inl (by simpa [setDraft, keeps.isolated] using aside)
      · refine .inr (.inl ?_)
        rcases drafted with inside | unused
        · exact .inl ((opened e).mpr inside)
        · exact .inr (by simp [unused, touched])
      · exact .inr (.inr (.inl ⟨other, List.mem_cons_of_mem _ inside, touchedOther⟩))
      · refine .inr (.inr (.inr ⟨other, ?_⟩))
        by_cases same : other = draft
        · subst same
          simpa [setDraft, cleared] using member
        · simpa [setDraft, same] using member
  · intro other e member
    have before : e ∈ (w.drafts other).cleared := by
      by_cases same : other = draft
      · subst same
        simpa [setDraft, cleared] using member
      · simpa [setDraft, same] using member
    exact sound.cleared other e before

theorem objectBytes_erase {objects : List (List Segment)} {segs : List Segment}
    (member : segs ∈ objects) (e : Nat) :
    objectBytes objects e = segBytes segs e + objectBytes (objects.erase segs) e := by
  have perm := (List.perm_cons_erase member).map (segBytes · e)
  have sums := perm.sum_eq
  rwa [List.map_cons, List.sum_cons] at sums

theorem Sound.releaseObject (sound : w.Sound) {draft : Nat} {segs : List Segment}
    (allowed : w.Allowed (.releaseObject draft segs)) :
    (w.run (.releaseObject draft segs)).Sound := by
  have split := objectBytes_erase allowed
  obtain ⟨keeps, live, only, more, all⟩ := releaseObject_pins (a := w.alloc) (w.drafts draft)
    sound.unshared (fun e => by rw [sound.live e, split]) (fun e => by rw [← split]; exact sound.fits e)
  have opened := inOpenDraft_setDraft (w := w) keeps.alloc
  have lower : ∀ e, w.alloc.liveBytes e = 0 →
      (w.alloc.releaseObject (w.drafts draft) segs).1.liveBytes e = 0 := by
    intro e empty
    have whole := sound.fits e
    rw [sound.live e, ← UInt32.toNat_inj, UInt32.toNat_ofNat', Nat.mod_eq_of_lt whole, split e] at empty
    rw [live e, show objectBytes (w.objects.erase segs) e = 0 by simp at empty; exact empty.2]
    rfl
  refine ⟨⟨?_, ?_, ?_, ?_⟩, ?_, ?_, ?_, ?_, ?_, ?_⟩
  all_goals simp only [run]
  · intro e held
    simp only [setDraft, keeps.pinCount, keeps.count] at held ⊢
    exact sound.pins.inside e held
  · intro e aside
    simp only [setDraft, keeps.isolated] at aside
    obtain ⟨empty, held, closed⟩ := sound.pins.isolated e aside
    refine ⟨lower e empty, ?_, fun stillOpen => closed ((opened e).mp stillOpen)⟩
    simpa [setDraft, keeps.pinCount] using held
  · intro e inside
    simpa [setDraft, keeps.bitmap] using sound.pins.openBits e ((opened e).mp inside)
  · intro e nonempty
    simp only [setDraft, keeps.bitmap]
    exact sound.pins.liveBits e fun empty => nonempty (lower e empty)
  · intro key
    simpa [setDraft, keeps.shared] using sound.unshared key
  · intro other
    by_cases same : other = draft
    · subst same
      simpa [setDraft] using keeps.inflight.trans (sound.noInflight other)
    · simpa [setDraft, same] using sound.noInflight other
  · exact live
  · intro e
    have whole := sound.fits e
    rw [split e] at whole
    omega
  · intro e set
    simp only [setDraft, keeps.bitmap] at set
    rcases sound.used e set with aside | drafted | ⟨object, inside, touched⟩ | ⟨other, member⟩
    · exact .inl (by simpa [setDraft, keeps.isolated] using aside)
    · refine .inr (.inl ?_)
      rcases drafted with inside | unused
      · exact .inl ((opened e).mpr inside)
      · exact .inr unused
    · by_cases remains : ∃ object ∈ w.objects.erase segs, touches object e = true
      · exact .inr (.inr (.inl remains))
      · -- the released object was the last one in the extent
        refine .inr (.inr (.inr ⟨draft, ?_⟩))
        have released : touches segs e = true := by
          by_cases same : object = segs
          · rw [← same]
            exact touched
          · exact absurd ⟨object, (List.mem_erase_of_ne same).mpr inside, touched⟩ remains
        have alone : objectBytes (w.objects.erase segs) e = 0 := by
          apply List.sum_eq_zero
          intro bytes member
          obtain ⟨other, inside, rfl⟩ := List.mem_map.mp member
          apply segBytes_eq_zero
          rw [Bool.eq_false_iff]
          exact fun touched => remains ⟨other, inside, touched⟩
        simpa [setDraft] using all e released alone
    · refine .inr (.inr (.inr ⟨other, ?_⟩))
      by_cases same : other = draft
      · subst same
        simpa [setDraft] using more e member
      · simpa [setDraft, same] using member
  · intro other e member
    by_cases same : other = draft
    · subst same
      simp only [setDraft, Function.update_self] at member ⊢
      rcases only e member with before | touched
      · obtain ⟨object, inside, touchedOld⟩ := sound.cleared other e before
        exact ⟨object, List.mem_cons_of_mem _ inside, touchedOld⟩
      · exact ⟨segs, List.mem_cons_self, touched⟩
    · simp only [setDraft, Function.update_of_ne same] at member ⊢
      exact sound.cleared other e member

theorem Sound.toAllocDraft (sound : w.Sound) {draft : Nat}
    (careful : w.Careful (.toAllocDraft draft)) : (w.run (.toAllocDraft draft)).Sound := by
  obtain ⟨live, shared, pinCount, count, bits, isolated⟩ :=
    Allocator.foldl_settleCleared_pins (w.drafts draft).cleared w.alloc
  have opened : ∀ e, (w.run (.toAllocDraft draft)).InOpenDraft e →
      ∃ other, other ≠ draft ∧ e ∈ (w.drafts other).extents := by
    rintro e ⟨other, member⟩
    by_cases same : other = draft
    · subst same
      simp [run, setDraft, Staged.extents] at member
    · exact ⟨other, same, by simpa [run, setDraft, same] using member⟩
  have stays : ∀ e, w.alloc.bitmap.test e = true →
      (e ∈ (w.drafts draft).cleared → w.alloc.liveBytes e = 0 → w.alloc.isPinned e = true) →
      ((w.drafts draft).cleared.foldl Allocator.settleCleared w.alloc).bitmap.test e = true := by
    intro e set kept
    rw [bits e, set, Bool.true_and, Bool.not_eq_true', decide_eq_false_iff_not]
    rintro ⟨member, empty, unpinned⟩
    rw [kept member empty] at unpinned
    cases unpinned
  refine ⟨⟨?_, ?_, ?_, ?_⟩, ?_, ?_, ?_, sound.fits, ?_, ?_⟩
  · intro e held
    simp only [run, setDraft, Allocator.toAllocDraft, pinCount, count] at held ⊢
    exact sound.pins.inside e held
  · intro e aside
    simp only [run, setDraft, Allocator.toAllocDraft, isolated, Bool.or_eq_true, decide_eq_true_eq]
      at aside
    simp only [run, setDraft, Allocator.toAllocDraft, live, pinCount]
    rcases aside with old | ⟨member, empty, pinned⟩
    · obtain ⟨empty, held, closed⟩ := sound.pins.isolated e old
      refine ⟨empty, held, ?_⟩
      intro stillOpen
      obtain ⟨other, _, inside⟩ := opened e stillOpen
      exact closed ⟨other, inside⟩
    · refine ⟨empty, (sound.pins.isPinned_iff e).mp pinned, ?_⟩
      intro stillOpen
      obtain ⟨other, different, inside⟩ := opened e stillOpen
      exact careful e member empty other different inside
  · intro e inside
    obtain ⟨other, different, member⟩ := opened e inside
    simp only [run, setDraft, Allocator.toAllocDraft]
    apply stays e (sound.pins.openBits e ⟨other, member⟩)
    intro emptied empty
    exact absurd member (careful e emptied empty other different)
  · intro e nonempty
    simp only [run, setDraft, Allocator.toAllocDraft, live] at nonempty ⊢
    exact stays e (sound.pins.liveBits e nonempty) fun _ empty => absurd empty nonempty
  · intro key
    simp only [run, setDraft, Allocator.toAllocDraft, shared]
    exact sound.unshared key
  · intro other
    by_cases same : other = draft
    · subst same
      simp [run, setDraft]
    · simpa [run, setDraft, same] using sound.noInflight other
  · intro e
    simp only [run, setDraft, Allocator.toAllocDraft, live]
    exact sound.live e
  · intro e set
    simp only [run, setDraft, Allocator.toAllocDraft, bits, Bool.and_eq_true, Bool.not_eq_true',
      decide_eq_false_iff_not, not_and] at set
    obtain ⟨before, unsettled⟩ := set
    have settled : e ∈ (w.drafts draft).cleared → w.alloc.liveBytes e = 0 →
        (w.run (.toAllocDraft draft)).alloc.isolated e = true := by
      intro member empty
      have pinned : w.alloc.isPinned e = true := by
        have notFree := unsettled member empty
        simpa using notFree
      simp [run, setDraft, Allocator.toAllocDraft, isolated, member, empty, pinned]
    by_cases nonempty : w.alloc.liveBytes e = 0
    · rcases sound.used e before with aside | drafted | object | ⟨other, member⟩
      · exact .inl (by simp [run, setDraft, Allocator.toAllocDraft, isolated, aside])
      · by_cases emptied : e ∈ (w.drafts draft).cleared
        · exact .inl (settled emptied nonempty)
        · refine .inr (.inl ?_)
          rcases drafted with ⟨other, inside⟩ | unused
          · by_cases same : other = draft
            · subst same
              exact .inr (by simp [run, inside, nonempty, emptied])
            · exact .inl ⟨other, by simpa [run, setDraft, same] using inside⟩
          · exact .inr (by simp [run, unused])
      · exact .inr (.inr (.inl object))
      · by_cases same : other = draft
        · subst same
          exact .inl (settled member nonempty)
        · exact .inr (.inr (.inr ⟨other, by simpa [run, setDraft, same] using member⟩))
    · exact .inr (.inr (.inl (sound.object_of_live nonempty)))
  · intro other e member
    by_cases same : other = draft
    · subst same
      simp [run, setDraft] at member
    · simp only [run, setDraft, Function.update_of_ne same] at member ⊢
      exact sound.cleared other e member

theorem foldl_pinOne (ids : List Nat) (a : Allocator) :
    ∃ pinCount, a.pin ids = { a with pinCount := pinCount } ∧ ∀ e, a.pinCount e ≤ pinCount e ∧
      (0 < pinCount e → 0 < a.pinCount e ∨ e < a.n) := by
  induction ids generalizing a with
  | nil => exact ⟨a.pinCount, rfl, fun e => ⟨Nat.le_refl _, .inl⟩⟩
  | cons id ids ih =>
    have unfolded : a.pin (id :: ids) = (a.pinOne id).pin ids := rfl
    obtain ⟨pinCount, result, grows⟩ := ih (a.pinOne id)
    rw [unfolded, result]
    by_cases inside : id < a.n
    · have first : a.pinOne id =
          { a with pinCount := Function.update a.pinCount id (a.pinCount id + 1) } := by
        rw [Allocator.pinOne, if_pos inside]
      rw [first] at grows ⊢
      refine ⟨pinCount, rfl, ?_⟩
      intro e
      have more := grows e
      simp only at more
      by_cases same : e = id
      · subst same
        rw [Function.update_self] at more
        exact ⟨by omega, fun _ => .inr inside⟩
      · rw [Function.update_of_ne same] at more
        exact more
    · have first : a.pinOne id = a := by
        rw [Allocator.pinOne, if_neg inside]
      rw [first] at grows ⊢
      exact ⟨pinCount, rfl, grows⟩

theorem Sound.pin (sound : w.Sound) (ids : List Nat) : (w.run (.pin ids)).Sound := by
  obtain ⟨pinCount, result, grows⟩ := foldl_pinOne ids w.alloc
  simp only [run, result]
  refine ⟨⟨?_, ?_, sound.pins.openBits, sound.pins.liveBits⟩, sound.unshared, sound.noInflight,
    sound.live, sound.fits, sound.used, sound.cleared⟩
  · intro e held
    rcases (grows e).2 held with before | inside
    · exact sound.pins.inside e before
    · exact inside
  · intro e aside
    obtain ⟨empty, held, closed⟩ := sound.pins.isolated e aside
    exact ⟨empty, Nat.lt_of_lt_of_le held (grows e).1, closed⟩

theorem Sound.unpin (sound : w.Sound) {ids : List Nat} (allowed : w.Allowed (.unpin ids)) :
    (w.run (.unpin ids)).Sound := by
  obtain ⟨pins, frame, shrinks, _, stays⟩ := sound.pins.unpin allowed
  refine ⟨pins, ?_, sound.noInflight, ?_, sound.fits, ?_, sound.cleared⟩
  · intro key
    exact (congrFun frame.shared key).trans (sound.unshared key)
  · intro e
    exact (congrFun frame.liveBytes e).trans (sound.live e)
  · intro e set
    rcases sound.used e (shrinks e set) with aside | others
    · left
      rcases stays e aside with still | clear
      · exact still
      · exact absurd set (by rw [run, clear]; simp)
    · exact .inr others

theorem Sound.run (sound : w.Sound) {call : PinCall} (allowed : w.Allowed call)
    (careful : w.Careful call) : (w.run call).Sound := by
  cases call with
  | allocate draft hint count => exact sound.allocate draft hint count
  | allocateInRange draft hint start count => exact sound.allocateInRange draft hint start count
  | addObject draft segs => exact sound.addObject allowed careful
  | releaseObject draft segs => exact sound.releaseObject allowed
  | toAllocDraft draft => exact sound.toAllocDraft careful
  | pin ids => exact sound.pin ids
  | unpin ids => exact sound.unpin allowed

/-- The worlds that careful calls lead to from an empty pool of `n` extents. -/
inductive Reached (n : Nat) : PinWorld → Prop where
  | start : Reached n (new n)
  | step {w : PinWorld} {call : PinCall} (before : Reached n w) (allowed : w.Allowed call)
      (careful : w.Careful call) : Reached n (w.run call)

theorem Reached.sound {n : Nat} (reached : Reached n w) : w.Sound := by
  induction reached with
  | start => exact new_sound n
  | step before allowed careful ih => exact ih.run allowed careful

/-- In every world reached, an allocation returns no pinned extent; the last unpin of an
extent that no draft has allocated and no stored object uses leaves its bit clear; and
no unpin clears the bit of an extent in an open draft or with live bytes. -/
theorem pins_exclude_reuse {n : Nat} {w : PinWorld} (reached : Reached n w) :
    (∀ draft hint count ids, (w.alloc.allocate draft hint count).2.2 = .ok ids →
      ∀ e ∈ ids, w.alloc.pinCount e = 0) ∧
    (∀ draft hint start count e, (w.alloc.allocateInRange draft hint start count).2.2 = some e →
      w.alloc.pinCount e = 0) ∧
    ∀ ids, w.Allowed (.unpin ids) →
      (∀ e ∈ ids, (w.run (.unpin ids)).alloc.pinCount e = 0 → ¬w.Drafted e → ¬w.Held e →
        (w.run (.unpin ids)).alloc.bitmap.test e = false) ∧
      ∀ e, w.alloc.bitmap.test e = true → (w.run (.unpin ids)).alloc.bitmap.test e = false →
        ¬w.InOpenDraft e ∧ w.alloc.liveBytes e = 0 := by
  have sound := reached.sound
  have unpinned : ∀ e, w.alloc.isPinned e = false → w.alloc.pinCount e = 0 := by
    intro e free
    by_contra held
    rw [(sound.pins.isPinned_iff e).mpr (Nat.pos_of_ne_zero held)] at free
    cases free
  refine ⟨?_, ?_, ?_⟩
  · intro draft hint count ids returned e member
    obtain ⟨middle, taken, parked, _, took, ⟨_, result⟩ | ⟨_, back, _, result⟩⟩ :=
      w.alloc.allocate_cases draft hint count
    · rw [result] at returned
      cases returned
      exact unpinned e (took.unpinned e member)
    · rw [result] at returned
      cases returned
  · intro draft hint start count e returned
    obtain ⟨after, taken, parked, _, took, result⟩ :=
      w.alloc.allocateInRange_cases draft hint start count
    rw [result] at returned
    simp only at returned
    subst returned
    exact unpinned e (took.unpinned e (by simp))
  · intro ids allowed
    obtain ⟨pins, _, shrinks, frees, stays⟩ := sound.pins.unpin allowed
    constructor
    · intro e _ last free unheld
      cases set : (w.run (.unpin ids)).alloc.bitmap.test e with
      | false => rfl
      | true =>
        exfalso
        rcases sound.used e (shrinks e set) with aside | drafted | object | ⟨draft, member⟩
        · rcases stays e aside with still | clear
          · have held := (pins.isolated e still).2.1
            simp only [run] at last
            omega
          · exact absurd set (by rw [run, clear]; simp)
        · exact free drafted
        · exact unheld (.inl object)
        · exact unheld (.inr ⟨draft, sound.cleared draft e member⟩)
    · intro e set clear
      obtain ⟨empty, _, closed⟩ := sound.pins.isolated e (frees e set clear)
      exact ⟨closed, empty⟩

/-- With extent 0 pinned an allocation gets extent 1. -/
theorem pins_exclude_reuse_free : ((new 4).run (.pin [0])).alloc.pinCount 1 = 0 :=
  (pins_exclude_reuse (@Reached.step 4 _ (.pin [0]) .start trivial trivial)).1 {} 0 1 [1] (by decide) 1
    List.mem_cons_self

def AllAllowed : PinWorld → List PinCall → Prop
  | _, [] => True
  | w, call :: rest => w.Allowed call ∧ AllAllowed (w.run call) rest

def runAll (w : PinWorld) (calls : List PinCall) : PinWorld :=
  calls.foldl run w

/-- Extent 0 runs empty under a reader's pin and is isolated. Then an object is added to
it, so it stays isolated beyond the last unpin. It is freed when that object goes, and
allocated in draft 4, to which a second reader comes. -/
def staleIsolation : List PinCall :=
  [.allocate 0 0 1, .addObject 0 [⟨0, 0, 4096, []⟩], .toAllocDraft 0, .pin [0],
    .releaseObject 1 [⟨0, 0, 4096, []⟩], .toAllocDraft 1,
    .addObject 2 [⟨0, 4096, 4096, []⟩], .toAllocDraft 2, .unpin [0],
    .releaseObject 3 [⟨0, 4096, 4096, []⟩], .toAllocDraft 3,
    .allocate 4 0 1, .pin [0]]

theorem unpin_clears_drafted_extent :
    AllAllowed (new 4) (staleIsolation ++ [.unpin [0]]) ∧
      0 ∈ (((new 4).runAll staleIsolation).drafts 4).extents ∧
      ((new 4).runAll staleIsolation).alloc.bitmap.test 0 = true ∧
      (((new 4).runAll staleIsolation).run (.unpin [0])).alloc.bitmap.test 0 = false := by
  refine ⟨?_, by decide, by decide, by decide⟩
  have fits : ∀ offset e, (([⟨0, offset, 4096, []⟩] :: []).map (segBytes · e)).sum < 2 ^ 32 := by
    intro offset e
    simp only [List.map_cons, List.map_nil, List.sum_cons, List.sum_nil, segBytes]
    split
    · decide
    · decide
  refine ⟨trivial, fits 0, trivial, trivial, ?_, trivial, fits 4096, trivial, ?_, ?_, trivial,
    trivial, trivial, ?_, trivial⟩
  · exact List.mem_singleton.mpr rfl
  · intro e _
    rcases Nat.eq_zero_or_pos e with rfl | positive
    · decide
    · rw [List.count_cons_of_ne (by omega), List.count_nil]
      exact Nat.zero_le _
  · exact List.mem_singleton.mpr rfl
  · intro e _
    rcases Nat.eq_zero_or_pos e with rfl | positive
    · decide
    · rw [List.count_cons_of_ne (by omega), List.count_nil]
      exact Nat.zero_le _

end PinWorld

end FastS3.Alloc
