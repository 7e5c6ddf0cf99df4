import FastS3.Alloc.Rebuild
import FastS3.Engine.Recovery

namespace FastS3.Engine

open Alloc FastS3.Core Data Device Recovery

/-! Whether the recovery of a device stays inside the device.

The header scan and the choice of the resumed extent use global ids throughout.
`seal_at_recovery` passes its local id to the allocator, which is the right extent
only on the device with base 0.
-/

def leftOpen (a : Allocator) (disk : Disk) (extentId : Nat) : Bool :=
  let id := disk.slot.base + extentId
  a.bitmap.test id && a.liveBytes id != 0 &&
    match ExtentHeader.decode (disk.dev.read (extentOffset disk.slot.sb extentId) sectorSize) with
    | .ok header => header.generation != a.generations id
    | .error _ => true

def crashResidue (a : Allocator) (disk : Disk) : List Nat :=
  (List.range disk.slot.extentCount).filter (leftOpen a disk)

def NothingToSeal (a : Allocator) (maxEnd : Nat → Option Nat) (disk : Disk) : Prop :=
  (crashResidue a disk).length ≤ 1 ∧
    ∀ extentId ∈ crashResidue a disk,
      recoveredWatermark maxEnd (disk.slot.base + extentId) < disk.slot.sb.extentCapacity

/-- The recovery of a device stays inside its own extents `base .. base + count`. -/
structure Confined (capacity base count : Nat) (before : Allocator) (final : Recovery) : Prop where
  reads : ∀ id, (.liveBytesOf id ∈ final.accesses ∨ .refcount id ∈ final.accesses ∨
    .generation id ∈ final.accesses) → base ≤ id ∧ id < base + count
  states : ∀ e, ¬(base ≤ e ∧ e < base + count) → final.alloc.state e = before.state e
  seals : ∀ i extentId header, final.accesses[i]? = some (.writeHeader extentId header) →
    final.accesses[i + 1]? = some (.markSealed (base + extentId))
  headers : ∀ extentId header, .writeHeader extentId header ∈ final.accesses →
    header.generation = before.generations (base + extentId) ∧
      (header.isPacked = false ↔ capacity ≤ (before.liveBytes (base + extentId)).toNat ∧
        before.refcounts (base + extentId) = 1)

section Own

variable {capacity base count : Nat} {before : Allocator}

/-- The invariant of a confined recovery: only extent states have changed. -/
structure Confining (capacity base count : Nat) (before : Allocator) (s : Recovery) : Prop where
  confined : Confined capacity base count before s
  same : s.alloc = { before with state := s.alloc.state }

theorem Confining.start (dev : BlockDevice) :
    Confining capacity base count before ⟨before, dev, []⟩ := by
  refine ⟨⟨?_, fun _ _ => rfl, ?_, ?_⟩, rfl⟩ <;> simp

theorem Confining.access {s : Recovery} (confining : Confining capacity base count before s)
    {access : Access} (noHeader : ∀ extentId header, access ≠ .writeHeader extentId header)
    (own : ∀ id, access = .liveBytesOf id ∨ access = .refcount id ∨ access = .generation id →
      base ≤ id ∧ id < base + count) :
    Confining capacity base count before { s with accesses := s.accesses ++ [access] } := by
  obtain ⟨⟨reads, states, seals, headers⟩, same⟩ := confining
  refine ⟨⟨?_, states, ?_, ?_⟩, same⟩
  · intro id member
    simp only [List.mem_append, List.mem_singleton] at member
    by_cases last : access = .liveBytesOf id ∨ access = .refcount id ∨ access = .generation id
    · exact own id last
    · apply reads id
      tauto
  · intro i extentId header found
    rw [List.getElem?_append] at found
    split at found
    · next inside =>
      have next := seals i extentId header found
      rw [List.getElem?_append_left]
      · exact next
      · exact (List.getElem?_eq_some_iff.mp next).1
    · have last := List.mem_of_getElem? found
      rw [List.mem_singleton] at last
      exact absurd last.symm (noHeader extentId header)
  · intro extentId header member
    rw [List.mem_append, List.mem_singleton] at member
    rcases member with earlier | last
    · exact headers extentId header earlier
    · exact absurd last.symm (noHeader extentId header)

theorem Confining.device {s : Recovery} (confining : Confining capacity base count before s)
    (dev : BlockDevice) : Confining capacity base count before { s with dev := dev } :=
  ⟨⟨confining.confined.reads, confining.confined.states, confining.confined.seals,
    confining.confined.headers⟩, confining.same⟩

theorem Confining.mark {s : Recovery} (confining : Confining capacity base count before s)
    {id : Nat} (own : base ≤ id ∧ id < base + count) (state : ExtentState) :
    Confining capacity base count before
      { s with alloc := { s.alloc with state := Function.update s.alloc.state id state } } := by
  obtain ⟨⟨reads, states, seals, headers⟩, same⟩ := confining
  refine ⟨⟨reads, ?_, seals, headers⟩, ?_⟩
  · intro e outside
    have different : e ≠ id := fun equal => outside (equal ▸ own)
    simp only [Function.update_of_ne different]
    exact states e outside
  · rw [same]

theorem Confining.sealed {s : Recovery} (confining : Confining capacity base count before s)
    {extentId : Nat} {header : ExtentHeader}
    (right : header.generation = before.generations (base + extentId) ∧
      (header.isPacked = false ↔ capacity ≤ (before.liveBytes (base + extentId)).toNat ∧
        before.refcounts (base + extentId) = 1)) :
    Confining capacity base count before
      { s with accesses :=
          s.accesses ++ [.writeHeader extentId header] ++ [.markSealed (base + extentId)] } := by
  obtain ⟨⟨reads, states, seals, headers⟩, same⟩ := confining
  refine ⟨⟨?_, states, ?_, ?_⟩, same⟩
  · intro id member
    apply reads id
    simpa using member
  · intro i other found written
    simp only [List.append_assoc, List.singleton_append] at written ⊢
    rcases Nat.lt_trichotomy i s.accesses.length with inside | rfl | behind
    · rw [List.getElem?_append_left inside] at written
      have next := seals i other found written
      rw [List.getElem?_append_left (List.getElem?_eq_some_iff.mp next).1]
      exact next
    · rw [List.getElem?_append_right (Nat.le_refl _), Nat.sub_self] at written
      simp only [List.getElem?_cons_zero, Option.some.injEq, Access.writeHeader.injEq] at written
      rw [List.getElem?_append_right (by omega), Nat.add_sub_cancel_left, ← written.1]
      rfl
    · have at_end := (List.getElem?_eq_some_iff.mp written).1
      simp only [List.length_append, List.length_cons, List.length_nil] at at_end
      have last : i = s.accesses.length + 1 := by omega
      rw [last, List.getElem?_append_right (by omega), Nat.add_sub_cancel_left] at written
      simp at written
  · intro other found member
    simp only [List.append_assoc, List.singleton_append, List.mem_append, List.mem_cons,
      List.not_mem_nil, or_false, reduceCtorEq, Access.writeHeader.injEq] at member
    rcases member with earlier | ⟨rfl, rfl⟩
    · exact headers other found earlier
    · exact right

end Own

/-! What each program of the recovery does to a confined state. -/

section Programs

variable {capacity base count : Nat} {before : Allocator}

theorem consult_confining {α : Type} {access : Access} {value : Allocator → α}
    (noHeader : ∀ extentId header, access ≠ .writeHeader extentId header)
    (own : ∀ id, access = .liveBytesOf id ∨ access = .refcount id ∨ access = .generation id →
      base ≤ id ∧ id < base + count)
    (stateless : ∀ state, value { before with state := state } = value before) :
    Ensures (Confining capacity base count before) (consult access value)
      (fun result s => result = value before ∧ Confining capacity base count before s)
      (Confining capacity base count before) := by
  apply Ensures.modifyGet
  intro s confining
  refine ⟨?_, confining.access noHeader own⟩
  rw [confining.same]
  exact stateless _

theorem preadAligned_confining (off len : Nat) :
    Ensures (Confining capacity base count before) (preadAligned off len)
      (fun _ => Confining capacity base count before) (Confining capacity base count before) := by
  refine ⟨fun s confining => ?_⟩
  unfold preadAligned
  rcases s.dev.preadAligned off len with ⟨⟨_⟩ | ⟨_⟩, dev⟩
  · exact confining.device dev
  · exact confining.device dev

theorem computeExtentCrcsRaw_confining (sb : SuperBlock) (extentId room : Nat) :
    Ensures (Confining capacity base count before) (computeExtentCrcsRaw sb extentId room)
      (fun _ => Confining capacity base count before) (Confining capacity base count before) := by
  apply Ensures.foldlM (fun _ _ => Confining capacity base count before)
  intro done i rest acc _
  apply Ensures.bind (preadAligned_confining _ _)
  intro buf
  exact Ensures.pure fun s confining => confining

variable {id : Nat}

theorem liveBytesOf_confining (own : base ≤ id ∧ id < base + count) :
    Ensures (Confining capacity base count before) (liveBytesOf id)
      (fun live s => live = before.liveBytes id ∧ Confining capacity base count before s)
      (Confining capacity base count before) := by
  apply consult_confining
  · simp
  · intro other access
    simp only [Access.liveBytesOf.injEq, reduceCtorEq, or_false] at access
    exact access ▸ own
  · intro state
    rfl

theorem refcount_confining (own : base ≤ id ∧ id < base + count) :
    Ensures (Confining capacity base count before) (refcount id)
      (fun holders s => holders = before.refcounts id ∧ Confining capacity base count before s)
      (Confining capacity base count before) := by
  apply consult_confining
  · simp
  · intro other access
    simp only [Access.refcount.injEq, reduceCtorEq, or_false, false_or] at access
    exact access ▸ own
  · intro state
    rfl

theorem generation_confining (own : base ≤ id ∧ id < base + count) :
    Ensures (Confining capacity base count before) (generation id)
      (fun gen s => gen = before.generations id ∧ Confining capacity base count before s)
      (Confining capacity base count before) := by
  apply consult_confining
  · simp
  · intro other access
    simp only [Access.generation.injEq, reduceCtorEq, false_or] at access
    exact access ▸ own
  · intro state
    rfl

theorem testBit_confining (id : Nat) :
    Ensures (Confining capacity base count before) (testBit id)
      (fun set s => set = before.bitmap.test id ∧ Confining capacity base count before s)
      (Confining capacity base count before) := by
  apply consult_confining
  · simp
  · simp
  · intro state
    rfl

theorem fullAndUnshared_confining {sb : SuperBlock} (own : base ≤ id ∧ id < base + count) :
    Ensures (Confining capacity base count before) (fullAndUnshared sb id)
      (fun exclusive s => exclusive = (decide (sb.extentCapacity ≤ (before.liveBytes id).toNat ∧
        before.refcounts id = 1)) ∧ Confining capacity base count before s)
      (Confining capacity base count before) := by
  unfold fullAndUnshared
  apply Ensures.bindFact (liveBytesOf_confining own)
  intro live known
  subst known
  apply Ensures.ite
  · intro full
    apply Ensures.bindFact (refcount_confining own)
    intro holders counted
    subst counted
    apply Ensures.pure
    intro s confining
    refine ⟨?_, confining⟩
    simp [full, beq_eq_decide]
  · intro short
    apply Ensures.pure
    intro s confining
    refine ⟨?_, confining⟩
    simp [short]

theorem pwriteHeader_confining (id : Nat) (header : ExtentHeader) (off : Nat) :
    Ensures (Confining capacity base count before) (pwriteHeader id header off)
      (fun _ s => ∃ log, s.accesses = log ++ [.writeHeader id header] ∧
        Confining capacity base count before { s with accesses := log })
      (Confining capacity base count before) := by
  refine ⟨fun s confining => ?_⟩
  unfold pwriteHeader
  rcases s.dev.pwriteAligned header.encode off with ⟨⟨_⟩ | ⟨_⟩, dev⟩
  · exact confining.device dev
  · exact ⟨s.accesses, rfl, confining.device dev⟩

theorem writeExtentHeaderRaw_confining {sb : SuperBlock} (own : base ≤ id ∧ id < base + count)
    (packed : Bool) (crcs : List UInt32) :
    Ensures (Confining capacity base count before) (writeExtentHeaderRaw sb id packed crcs)
      (fun _ s => ∃ log header, s.accesses = log ++ [.writeHeader id header] ∧
        header.generation = before.generations id ∧ header.isPacked = packed ∧
        Confining capacity base count before { s with accesses := log })
      (Confining capacity base count before) := by
  unfold writeExtentHeaderRaw
  apply Ensures.bindFact (generation_confining own)
  intro gen known
  apply Ensures.weaken (pwriteHeader_confining id _ _)
  intro _ s written
  obtain ⟨log, logged, confining⟩ := written
  refine ⟨log, _, logged, known, ?_, confining⟩
  cases packed <;> rfl

theorem sealAtRecovery_confining {sb : SuperBlock} (below : id < count) :
    Ensures (Confining sb.extentCapacity 0 count before) (sealAtRecovery sb id)
      (fun _ => Confining sb.extentCapacity 0 count before)
      (Confining sb.extentCapacity 0 count before) := by
  have own : 0 ≤ id ∧ id < 0 + count := by omega
  unfold sealAtRecovery
  apply Ensures.bindFact (fullAndUnshared_confining own)
  intro exclusive known
  -- After either header the log ends with it.
  have written : Ensures (Confining sb.extentCapacity 0 count before)
      (writeSealingHeader sb id exclusive)
      (fun _ s => ∃ log header, s.accesses = log ++ [.writeHeader id header] ∧
        header.generation = before.generations id ∧ header.isPacked = !exclusive ∧
        Confining sb.extentCapacity 0 count before { s with accesses := log })
      (Confining sb.extentCapacity 0 count before) := by
    unfold writeSealingHeader
    apply Ensures.ite
    · intro yes
      apply Ensures.bind (computeExtentCrcsRaw_confining sb id sb.extentCapacity)
      intro crcs
      rw [yes]
      exact writeExtentHeaderRaw_confining own false crcs
    · intro no
      rw [Bool.not_eq_true] at no
      rw [no]
      exact writeExtentHeaderRaw_confining own true []
  apply Ensures.bind written
  intro _
  apply Ensures.modifyGet
  intro s ends
  obtain ⟨log, header, logged, gen, flag, confining⟩ := ends
  have right : header.generation = before.generations (0 + id) ∧
      (header.isPacked = false ↔ sb.extentCapacity ≤ (before.liveBytes (0 + id)).toNat ∧
        before.refcounts (0 + id) = 1) := by
    rw [Nat.zero_add, flag, known]
    exact ⟨gen, by simp⟩
  have sealed := (confining.sealed right).mark own .sealed
  rw [Nat.zero_add] at sealed
  simp only [logged]
  exact sealed

end Programs

section Scan

variable {capacity count : Nat} {before : Allocator}

def Scanning (capacity count : Nat) (before : Allocator) (disk : Disk) (s : Recovery) : Prop :=
  Confining capacity disk.slot.base count before s ∧ s.dev.content = disk.dev.content

variable {disk : Disk}

theorem Scanning.consult {α : Type} {fact : α → Prop} {access : Access} {value : Allocator → α}
    (confining : Ensures (Confining capacity disk.slot.base count before)
      (Recovery.consult access value)
      (fun result s => fact result ∧ Confining capacity disk.slot.base count before s)
      (Confining capacity disk.slot.base count before)) :
    Ensures (Scanning capacity count before disk) (Recovery.consult access value)
      (fun result s => fact result ∧ Scanning capacity count before disk s)
      (Confining capacity disk.slot.base count before) := by
  have same : Ensures (fun s : Recovery => s.dev.content = disk.dev.content)
      (Recovery.consult access value) (fun _ s => s.dev.content = disk.dev.content)
      (fun _ => True) :=
    Ensures.modifyGet fun s content => content
  apply Ensures.weakenFail ((confining.conj same).weaken ?_)
  · intro s failed
    exact failed.1
  · intro result s done
    exact ⟨done.1.1, done.1.2, done.2⟩

theorem readExtentHeaderRaw_scanning (extentId : Nat) :
    Ensures (Scanning capacity count before disk) (readExtentHeaderRaw disk.slot.sb extentId)
      (fun header s => header = (ExtentHeader.decode
          (disk.dev.read (extentOffset disk.slot.sb extentId) sectorSize)).toOption ∧
        Scanning capacity count before disk s)
      (Confining capacity disk.slot.base count before) := by
  have read : Ensures (Scanning capacity count before disk)
      (preadAligned (extentOffset disk.slot.sb extentId) sectorSize)
      (fun buf s => buf = disk.dev.read (extentOffset disk.slot.sb extentId) sectorSize ∧
        Scanning capacity count before disk s)
      (Confining capacity disk.slot.base count before) := by
    refine ⟨fun s scanning => ?_⟩
    obtain ⟨confining, content⟩ := scanning
    unfold preadAligned
    cases run : s.dev.preadAligned (extentOffset disk.slot.sb extentId) sectorSize with
    | mk outcome dev =>
      cases outcome with
      | error e => exact confining.device dev
      | ok buf =>
        obtain ⟨bytes, same⟩ := BlockDevice.preadAligned_ok run
        refine ⟨?_, confining.device dev, same.trans content⟩
        rw [bytes]
        simp only [BlockDevice.read, content]
  unfold readExtentHeaderRaw
  apply Ensures.bindFact read
  intro buf known
  rw [← known]
  cases ExtentHeader.decode buf with
  | ok header => exact Ensures.pure fun s scanning => ⟨rfl, scanning⟩
  | error e => exact Ensures.pure fun s scanning => ⟨rfl, scanning⟩

theorem scanExtent_scanning {extentId : Nat} (below : extentId < count) (candidates : List Nat) :
    Ensures (Scanning capacity count before disk)
      (scanExtent disk.slot.sb disk.slot.base candidates extentId)
      (fun found s => found = candidates ++ [extentId].filter (leftOpen before disk) ∧
        Scanning capacity count before disk s)
      (Confining capacity disk.slot.base count before) := by
  have own : disk.slot.base ≤ disk.slot.base + extentId ∧
      disk.slot.base + extentId < disk.slot.base + count := by omega
  unfold scanExtent
  apply Ensures.bindFact (Scanning.consult (testBit_confining _))
  intro allocated bit
  apply Ensures.ite
  · intro free
    apply Ensures.pure
    intro s scanning
    refine ⟨?_, scanning⟩
    have closed : leftOpen before disk extentId = false := by
      rw [bit, Bool.not_eq_true'] at free
      simp [leftOpen, free]
    simp [closed]
  intro occupied
  apply Ensures.bindFact (Scanning.consult (liveBytesOf_confining own))
  intro live bytes
  apply Ensures.ite
  · intro empty
    apply Ensures.pure
    intro s scanning
    refine ⟨?_, scanning⟩
    have closed : leftOpen before disk extentId = false := by
      rw [bytes] at empty
      simp [leftOpen, beq_iff_eq.mp empty]
    simp [closed]
  intro inUse
  have live_ne : (before.liveBytes (disk.slot.base + extentId) != 0) = true := by
    rw [← bytes]
    simpa using inUse
  have set : before.bitmap.test (disk.slot.base + extentId) = true := by
    rw [← bit]
    simpa using occupied
  apply Ensures.bindFact (readExtentHeaderRaw_scanning extentId)
  intro header read
  cases decoded : ExtentHeader.decode
      (disk.dev.read (extentOffset disk.slot.sb extentId) sectorSize) with
  | error e =>
    have nothing : header = none := by rw [read, decoded]; rfl
    subst nothing
    apply Ensures.pure
    intro s scanning
    refine ⟨?_, scanning⟩
    simp [leftOpen, set, live_ne, decoded]
  | ok stored =>
    have found : header = some stored := by rw [read, decoded]; rfl
    subst found
    apply Ensures.bindFact (Scanning.consult (generation_confining own))
    intro gen current
    subst current
    apply Ensures.ite
    · intro valid
      apply Ensures.pure
      intro s scanning
      refine ⟨?_, scanning⟩
      simp [leftOpen, decoded, beq_iff_eq.mp valid]
    · intro stale
      apply Ensures.pure
      intro s scanning
      refine ⟨?_, scanning⟩
      have differs : stored.generation ≠ before.generations (disk.slot.base + extentId) := by
        simpa using stale
      simp [leftOpen, set, live_ne, decoded, differs]

theorem openCandidates_scanning :
    Ensures (Scanning capacity disk.slot.extentCount before disk)
      (openCandidates disk.slot.sb disk.slot.base disk.slot.extentCount)
      (fun candidates s => candidates = crashResidue before disk ∧
        Confining capacity disk.slot.base disk.slot.extentCount before s)
      (Confining capacity disk.slot.base disk.slot.extentCount before) := by
  have loop := Ensures.foldlM
    (fun done candidates s => candidates = done.filter (leftOpen before disk) ∧
      Scanning capacity disk.slot.extentCount before disk s)
    (List.range disk.slot.extentCount) ([] : List Nat)
    (fun done extentId rest candidates split => by
      have below : extentId < disk.slot.extentCount := by
        rw [← List.mem_range, split]
        simp
      apply Ensures.assuming
      intro found
      subst found
      rw [List.filter_append]
      exact scanExtent_scanning below _)
  unfold openCandidates
  apply Ensures.strengthen (loop.weaken ?_)
  · intro s scanning
    exact ⟨rfl, scanning⟩
  · intro candidates s done
    exact ⟨done.1, done.2.1⟩

end Scan

section Resume

variable {count base : Nat} {before : Allocator} {sb : SuperBlock} {maxEnd : Nat → Option Nat}

variable {extentId : Nat}

theorem seal_confining (below : extentId < count) (first : base = 0) :
    Ensures (Confining sb.extentCapacity base count before) (sealAtRecovery sb extentId)
      (fun _ => Confining sb.extentCapacity base count before)
      (Confining sb.extentCapacity base count before) := by
  subst first
  exact sealAtRecovery_confining below

/-- The extent chosen so far is one of the candidates already seen. -/
structure Chosen (base : Nat) (maxEnd : Nat → Option Nat) (capacity : Nat) (done : List Nat)
    (resumed : Option (Nat × Nat)) : Prop where
  seen : ∀ id wm, resumed = some (id, wm) → ∃ extentId ∈ done, id = base + extentId
  start : done = [] → resumed = none
  only : ∀ extentId, done = [extentId] →
    recoveredWatermark maxEnd (base + extentId) < capacity →
      resumed = some (base + extentId, recoveredWatermark maxEnd (base + extentId))

theorem chooseCandidate_confining {done : List Nat} {resumed : Option (Nat × Nat)}
    (below : extentId < count) (chosen : Chosen base maxEnd sb.extentCapacity done resumed)
    (safe : sb.extentCapacity ≤ recoveredWatermark maxEnd (base + extentId) → base = 0) :
    Ensures (Confining sb.extentCapacity base count before)
      (chooseCandidate sb base maxEnd resumed extentId)
      (fun next s => Chosen base maxEnd sb.extentCapacity (done ++ [extentId]) next ∧
        Confining sb.extentCapacity base count before s)
      (Confining sb.extentCapacity base count before) := by
  have own : base ≤ base + extentId ∧ base + extentId < base + count := by omega
  have kept : ∀ id wm, resumed = some (id, wm) → ∃ other ∈ done ++ [extentId], id = base + other := by
    intro id wm known
    obtain ⟨other, member, same⟩ := chosen.seen id wm known
    exact ⟨other, by simp [member], same⟩
  have only_of_full : sb.extentCapacity ≤ recoveredWatermark maxEnd (base + extentId) →
      ∀ other, done ++ [extentId] = [other] →
        recoveredWatermark maxEnd (base + other) < sb.extentCapacity →
          resumed = some (base + other, recoveredWatermark maxEnd (base + other)) := by
    intro full other single room
    simp only [List.append_eq_singleton_iff, List.cons.injEq, and_true, reduceCtorEq, and_false,
      or_false] at single
    rw [single.2] at full
    omega
  have taken : Chosen base maxEnd sb.extentCapacity (done ++ [extentId])
      (some (base + extentId, recoveredWatermark maxEnd (base + extentId))) := by
    refine ⟨?_, by simp, ?_⟩
    · intro id wm known
      simp only [Option.some.injEq, Prod.mk.injEq] at known
      exact ⟨extentId, by simp, known.1.symm⟩
    · intro other single _
      simp only [List.append_eq_singleton_iff, List.cons.injEq, and_true, reduceCtorEq, and_false,
        or_false] at single
      rw [single.2]
  unfold chooseCandidate
  apply Ensures.bindFact (liveBytesOf_confining own)
  intro live _
  apply Ensures.ite
  · intro full
    apply Ensures.bind (seal_confining below (safe full))
    intro _
    apply Ensures.pure
    intro s confining
    exact ⟨⟨kept, by simp, only_of_full full⟩, confining⟩
  · intro room
    cases resumed with
    | none => exact Ensures.pure fun s confining => ⟨taken, confining⟩
    | some best =>
      have several : done ≠ [] := fun empty => by simpa using chosen.start empty
      apply Ensures.ite
      · intro _
        exact Ensures.pure fun s confining => ⟨taken, confining⟩
      · intro _
        apply Ensures.pure
        intro s confining
        refine ⟨⟨kept, by simp, ?_⟩, confining⟩
        intro other single _
        simp only [List.append_eq_singleton_iff, List.cons.injEq, and_true, reduceCtorEq,
          and_false, or_false] at single
        exact absurd single.1 several

theorem sealOther_confining {resumed : Option (Nat × Nat)} (below : extentId < count)
    (safe : resumed ≠ some (base + extentId, recoveredWatermark maxEnd (base + extentId)) →
      base = 0) :
    Ensures (Confining sb.extentCapacity base count before)
      (sealOther sb base maxEnd resumed extentId)
      (fun _ => Confining sb.extentCapacity base count before)
      (Confining sb.extentCapacity base count before) := by
  unfold sealOther
  apply Ensures.ite
  · intro other
    exact seal_confining below (safe other.2)
  · intro _
    exact Ensures.pure fun s confining => confining

theorem crashResidue_below {disk : Disk} (member : extentId ∈ crashResidue before disk) :
    extentId < disk.slot.extentCount :=
  List.mem_range.mp (List.mem_of_mem_filter member)

theorem crashResidue_nodup (before : Allocator) (disk : Disk) : (crashResidue before disk).Nodup :=
  List.nodup_range.filter _

def OpenedHere (base count : Nat) (opened : Option OpenExtent) (s : Recovery) : Prop :=
  ∀ extent, opened = some extent →
    (base ≤ extent.extentId ∧ extent.extentId < base + count) ∧
      s.alloc.state extent.extentId = .opened

theorem resumeOpenExtent_confining {disk : Disk}
    (safe : disk.slot.base = 0 ∨ NothingToSeal before maxEnd disk) :
    Ensures (Scanning disk.slot.sb.extentCapacity disk.slot.extentCount before disk)
      (resumeOpenExtent disk.slot.sb disk.slot.base disk.slot.extentCount maxEnd)
      (fun opened s => OpenedHere disk.slot.base disk.slot.extentCount opened s ∧
        Confining disk.slot.sb.extentCapacity disk.slot.base disk.slot.extentCount before s)
      (Confining disk.slot.sb.extentCapacity disk.slot.base disk.slot.extentCount before) := by
  unfold resumeOpenExtent
  apply Ensures.bindFact openCandidates_scanning
  intro candidates scanned
  subst scanned
  have choose := Ensures.foldlM (σ := Recovery) (ε := Error)
    (fun done resumed s => Chosen disk.slot.base maxEnd disk.slot.sb.extentCapacity done resumed ∧
      Confining disk.slot.sb.extentCapacity disk.slot.base disk.slot.extentCount before s)
    (crashResidue before disk) (none : Option (Nat × Nat))
    (fun done extentId rest resumed split => by
      have member : extentId ∈ crashResidue before disk := by simp [split]
      apply Ensures.assuming
      intro chosen
      apply chooseCandidate_confining (crashResidue_below member) chosen
      intro full
      rcases safe with first | nothing
      · exact first
      · have room := nothing.2 extentId member
        omega)
  apply Ensures.bindFact (choose.strengthen ?_)
  · intro resumed chosen
    have others : Ensures
        (Confining disk.slot.sb.extentCapacity disk.slot.base disk.slot.extentCount before)
        ((crashResidue before disk).foldlM
          (fun _ extentId => sealOther disk.slot.sb disk.slot.base maxEnd resumed extentId) ())
        (fun _ => Confining disk.slot.sb.extentCapacity disk.slot.base disk.slot.extentCount before)
        (Confining disk.slot.sb.extentCapacity disk.slot.base disk.slot.extentCount before) := by
      apply Ensures.foldlM (fun _ _ =>
        Confining disk.slot.sb.extentCapacity disk.slot.base disk.slot.extentCount before)
      intro done extentId rest _ split
      have member : extentId ∈ crashResidue before disk := by simp [split]
      apply sealOther_confining (crashResidue_below member)
      intro different
      rcases safe with first | nothing
      · exact first
      · -- The only candidate is the one that is resumed.
        have single : crashResidue before disk = [extentId] := by
          have short := nothing.1
          rw [split] at short ⊢
          simp only [List.length_append, List.length_cons] at short
          have noneBefore : done = [] := List.eq_nil_of_length_eq_zero (by omega)
          have noneAfter : rest = [] := List.eq_nil_of_length_eq_zero (by omega)
          rw [noneBefore, noneAfter, List.nil_append]
        exact absurd (chosen.only extentId single (nothing.2 extentId member)) different
    apply Ensures.bind others
    intro _
    cases resumed with
    | none =>
      apply Ensures.pure
      intro s confining
      exact ⟨by simp [OpenedHere], confining⟩
    | some found =>
      obtain ⟨id, wm⟩ := found
      obtain ⟨extentId, member, same⟩ := chosen.seen id wm rfl
      have below := crashResidue_below member
      have own : disk.slot.base ≤ id ∧ id < disk.slot.base + disk.slot.extentCount := by omega
      have marked : Ensures
          (Confining disk.slot.sb.extentCapacity disk.slot.base disk.slot.extentCount before)
          (markOpen id)
          (fun _ s => Confining disk.slot.sb.extentCapacity disk.slot.base
            disk.slot.extentCount before s ∧ s.alloc.state id = .opened)
          (Confining disk.slot.sb.extentCapacity disk.slot.base disk.slot.extentCount before) := by
        apply Ensures.modifyGet
        intro s confining
        exact ⟨(confining.mark own .opened).access (by simp) (by simp), Function.update_self _ _ _⟩
      have still : Ensures (fun s : Recovery => s.alloc.state id = .opened) (refcount id)
          (fun _ s => s.alloc.state id = .opened) (fun _ => True) :=
        Ensures.modifyGet fun s state => state
      apply Ensures.bind marked
      intro _
      apply Ensures.bind (((refcount_confining own).conj still).weakenFail fun s failed => failed.1)
      intro participants
      apply Ensures.pure
      intro s known
      refine ⟨?_, known.1.2⟩
      intro extent opened
      simp only [Option.some.injEq] at opened
      subst opened
      exact ⟨own, known.2⟩
  · intro s confining
    exact ⟨⟨by simp, fun _ => rfl, by simp⟩, confining⟩

end Resume

/-! Facts that every step of the recovery keeps. -/

section Stable

/-- A fact about the recovery that depends on neither the log nor the device nor
the extent states. -/
structure Stable (inv : Recovery → Prop) : Prop where
  log : ∀ s access, inv s → inv { s with accesses := s.accesses ++ [access] }
  device : ∀ s dev, inv s → inv { s with dev := dev }
  mark : ∀ s id state, inv s →
    inv { s with alloc := { s.alloc with state := Function.update s.alloc.state id state } }

variable {inv : Recovery → Prop} {sb : SuperBlock} {base count : Nat} {maxEnd : Nat → Option Nat}

theorem Stable.consult {α : Type} (stable : Stable inv) (access : Access)
    (value : Allocator → α) : Ensures inv (Recovery.consult access value) (fun _ => inv) inv :=
  Ensures.modifyGet fun s holds => stable.log s access holds

theorem Stable.preadAligned (stable : Stable inv) (off len : Nat) :
    Ensures inv (Recovery.preadAligned off len) (fun _ => inv) inv := by
  refine ⟨fun s holds => ?_⟩
  unfold Recovery.preadAligned
  rcases s.dev.preadAligned off len with ⟨⟨_⟩ | ⟨_⟩, dev⟩
  · exact stable.device s dev holds
  · exact stable.device s dev holds

theorem Stable.pwriteHeader (stable : Stable inv) (id : Nat) (header : ExtentHeader) (off : Nat) :
    Ensures inv (Recovery.pwriteHeader id header off) (fun _ => inv) inv := by
  refine ⟨fun s holds => ?_⟩
  unfold Recovery.pwriteHeader
  rcases s.dev.pwriteAligned header.encode off with ⟨⟨_⟩ | ⟨_⟩, dev⟩
  · exact stable.device s dev holds
  · exact stable.log _ _ (stable.device s dev holds)

theorem Stable.markSealed (stable : Stable inv) (id : Nat) :
    Ensures inv (Recovery.markSealed id) (fun _ => inv) inv :=
  Ensures.modifyGet fun s holds => stable.log _ _ (stable.mark s id .sealed holds)

theorem Stable.markOpen (stable : Stable inv) (id : Nat) :
    Ensures inv (Recovery.markOpen id) (fun _ => inv) inv :=
  Ensures.modifyGet fun s holds => stable.log _ _ (stable.mark s id .opened holds)

theorem Stable.computeExtentCrcsRaw (stable : Stable inv) (id room : Nat) :
    Ensures inv (computeExtentCrcsRaw sb id room) (fun _ => inv) inv := by
  apply Ensures.foldlM (fun _ _ => inv)
  intro done i rest crcs _
  apply Ensures.bind (stable.preadAligned _ _)
  intro buf
  exact Ensures.pure fun _ holds => holds

theorem Stable.fullAndUnshared (stable : Stable inv) (id : Nat) :
    Ensures inv (fullAndUnshared sb id) (fun _ => inv) inv := by
  unfold Engine.fullAndUnshared
  apply Ensures.bind (stable.consult _ _)
  intro live
  apply Ensures.ite
  · intro _
    apply Ensures.bind (stable.consult _ _)
    intro holders
    exact Ensures.pure fun _ holds => holds
  · intro _
    exact Ensures.pure fun _ holds => holds

theorem Stable.sealAtRecovery (stable : Stable inv) (id : Nat) :
    Ensures inv (sealAtRecovery sb id) (fun _ => inv) inv := by
  have header : ∀ packed crcs, Ensures inv (writeExtentHeaderRaw sb id packed crcs)
      (fun _ => inv) inv := by
    intro packed crcs
    unfold writeExtentHeaderRaw
    apply Ensures.bind (stable.consult _ _)
    intro gen
    exact stable.pwriteHeader id _ _
  unfold Engine.sealAtRecovery
  apply Ensures.bind (stable.fullAndUnshared id)
  intro exclusive
  have written : Ensures inv (writeSealingHeader sb id exclusive) (fun _ => inv) inv := by
    unfold writeSealingHeader
    apply Ensures.ite
    · intro _
      apply Ensures.bind (stable.computeExtentCrcsRaw id _)
      intro crcs
      exact header false crcs
    · intro _
      exact header true []
  apply Ensures.bind written
  intro _
  exact stable.markSealed id

theorem Stable.scanExtent (stable : Stable inv) (candidates : List Nat) (extentId : Nat) :
    Ensures inv (scanExtent sb base candidates extentId) (fun _ => inv) inv := by
  have done : ∀ found : List Nat, Ensures inv (pure found : RecoveryM (List Nat)) (fun _ => inv) inv :=
    fun found => Ensures.pure fun _ holds => holds
  have read : Ensures inv (readExtentHeaderRaw sb extentId) (fun _ => inv) inv := by
    unfold readExtentHeaderRaw
    apply Ensures.bind (stable.preadAligned _ _)
    intro buf
    cases ExtentHeader.decode buf with
    | ok header => exact Ensures.pure fun _ holds => holds
    | error e => exact Ensures.pure fun _ holds => holds
  unfold Engine.scanExtent
  apply Ensures.bind (stable.consult _ _)
  intro allocated
  apply Ensures.ite
  · intro _
    exact done _
  intro _
  apply Ensures.bind (stable.consult _ _)
  intro live
  apply Ensures.ite
  · intro _
    exact done _
  intro _
  apply Ensures.bind read
  intro header
  cases header with
  | none => exact done _
  | some stored =>
    apply Ensures.bind (stable.consult _ _)
    intro gen
    apply Ensures.ite
    · intro _
      exact done _
    · intro _
      exact done _

theorem Stable.chooseCandidate (stable : Stable inv) (resumed : Option (Nat × Nat)) (extentId : Nat) :
    Ensures inv (chooseCandidate sb base maxEnd resumed extentId) (fun _ => inv) inv := by
  unfold Engine.chooseCandidate
  apply Ensures.bind (stable.consult _ _)
  intro live
  apply Ensures.ite
  · intro _
    apply Ensures.bind (stable.sealAtRecovery extentId)
    intro _
    exact Ensures.pure fun _ holds => holds
  · intro _
    cases resumed with
    | none => exact Ensures.pure fun _ holds => holds
    | some best =>
      apply Ensures.ite
      · intro _
        exact Ensures.pure fun _ holds => holds
      · intro _
        exact Ensures.pure fun _ holds => holds

theorem Stable.resumeOpenExtent (stable : Stable inv) :
    Ensures inv (resumeOpenExtent sb base count maxEnd) (fun _ => inv) inv := by
  unfold Engine.resumeOpenExtent
  have scanned : Ensures inv (openCandidates sb base count) (fun _ => inv) inv := by
    apply Ensures.foldlM (fun _ _ => inv)
    intro done extentId rest candidates _
    exact stable.scanExtent candidates extentId
  apply Ensures.bind scanned
  intro candidates
  have chosen : Ensures inv (candidates.foldlM (Engine.chooseCandidate sb base maxEnd) none)
      (fun _ => inv) inv := by
    apply Ensures.foldlM (fun _ _ => inv)
    intro done extentId rest resumed _
    exact stable.chooseCandidate resumed extentId
  apply Ensures.bind chosen
  intro resumed
  have others : Ensures inv
      (candidates.foldlM (fun _ extentId => sealOther sb base maxEnd resumed extentId) ())
      (fun _ => inv) inv := by
    apply Ensures.foldlM (fun _ _ => inv)
    intro done extentId rest _ _
    unfold sealOther
    apply Ensures.ite
    · intro _
      exact stable.sealAtRecovery extentId
    · intro _
      exact Ensures.pure fun _ holds => holds
  apply Ensures.bind others
  intro _
  cases resumed with
  | none => exact Ensures.pure fun _ holds => holds
  | some found =>
    obtain ⟨id, wm⟩ := found
    apply Ensures.bind (stable.markOpen id)
    intro _
    apply Ensures.bind (stable.consult _ _)
    intro participants
    exact Ensures.pure fun _ holds => holds

theorem stable_counters (before : Allocator) :
    Stable fun s => s.alloc = { before with state := s.alloc.state } := by
  refine ⟨fun _ _ same => same, fun _ _ same => same, ?_⟩
  intro s id state same
  simp only
  rw [same]

theorem stable_true : Stable fun _ => True :=
  ⟨fun _ _ _ => trivial, fun _ _ _ => trivial, fun _ _ _ _ => trivial⟩

end Stable

/-! The other direction: a completed recovery that seals leaves a header followed by
the mark of the local id. -/

section Seals

variable {sb : SuperBlock} {base : Nat} {maxEnd : Nat → Option Nat}

def SealedLocally (s : Recovery) : Prop :=
  ∃ i extentId header, s.accesses[i]? = some (.writeHeader extentId header) ∧
    s.accesses[i + 1]? = some (.markSealed extentId)

theorem SealedLocally.append {s s' : Recovery} (sealed : SealedLocally s) {more : List Access}
    (grown : s'.accesses = s.accesses ++ more) : SealedLocally s' := by
  obtain ⟨i, extentId, header, written, marked⟩ := sealed
  refine ⟨i, extentId, header, ?_, ?_⟩
  · rw [grown, List.getElem?_append_left (List.getElem?_eq_some_iff.mp written).1]
    exact written
  · rw [grown, List.getElem?_append_left (List.getElem?_eq_some_iff.mp marked).1]
    exact marked

theorem Confined.base_zero {capacity count : Nat} {before : Allocator} {s : Recovery}
    (confined : Confined capacity base count before s) (sealed : SealedLocally s) : base = 0 := by
  obtain ⟨i, extentId, header, written, marked⟩ := sealed
  have expected := confined.seals i extentId header written
  rw [marked] at expected
  simp only [Option.some.injEq, Access.markSealed.injEq] at expected
  omega

theorem consult_keeps {α : Type} (owed : Prop) (access : Access) (value : Allocator → α) :
    Ensures (fun s => owed → SealedLocally s) (consult access value)
      (fun _ s => owed → SealedLocally s) (fun _ => True) :=
  Ensures.modifyGet fun _ sealed due => (sealed due).append rfl

theorem writeExtentHeaderRaw_last (id : Nat) (packed : Bool) (crcs : List UInt32) :
    Ensures (fun _ => True) (writeExtentHeaderRaw sb id packed crcs)
      (fun _ s => ∃ log header, s.accesses = log ++ [.writeHeader id header]) (fun _ => True) := by
  unfold writeExtentHeaderRaw
  apply Ensures.bind (stable_true.consult _ _)
  intro gen
  refine ⟨fun s _ => ?_⟩
  simp only [pwriteHeader]
  rcases s.dev.pwriteAligned _ _ with ⟨⟨_⟩ | ⟨_⟩, dev⟩
  · trivial
  · exact ⟨s.accesses, _, rfl⟩

theorem sealAtRecovery_seals (pre : Recovery → Prop) (id : Nat) :
    Ensures pre (sealAtRecovery sb id) (fun _ => SealedLocally) (fun _ => True) := by
  unfold sealAtRecovery
  apply Ensures.bind ((stable_true.fullAndUnshared id).strengthen fun _ _ => trivial)
  intro exclusive
  have written : Ensures (fun _ => True) (writeSealingHeader sb id exclusive)
      (fun _ s => ∃ log header, s.accesses = log ++ [.writeHeader id header]) (fun _ => True) := by
    unfold writeSealingHeader
    apply Ensures.ite
    · intro _
      apply Ensures.bind (stable_true.computeExtentCrcsRaw id _)
      intro crcs
      exact writeExtentHeaderRaw_last id false crcs
    · intro _
      exact writeExtentHeaderRaw_last id true []
  apply Ensures.bind written
  intro _
  apply Ensures.modifyGet
  intro s ends
  obtain ⟨log, header, logged⟩ := ends
  refine ⟨log.length, id, header, ?_, ?_⟩
  · simp [logged]
  · simp [logged]

def FullSealed (sb : SuperBlock) (base : Nat) (maxEnd : Nat → Option Nat) (extents : List Nat)
    (s : Recovery) : Prop :=
  (∃ extentId ∈ extents, sb.extentCapacity ≤ recoveredWatermark maxEnd (base + extentId)) →
    SealedLocally s

theorem chooseCandidates_seal (candidates : List Nat) :
    Ensures (fun _ => True) (candidates.foldlM (chooseCandidate sb base maxEnd) none)
      (fun _ => FullSealed sb base maxEnd candidates) (fun _ => True) := by
  have loop : Ensures (FullSealed sb base maxEnd [])
      (candidates.foldlM (chooseCandidate sb base maxEnd) none)
      (fun _ => FullSealed sb base maxEnd candidates) (fun _ => True) := by
    apply Ensures.foldlM (fun done _ => FullSealed sb base maxEnd done)
    intro done extentId rest resumed _
    unfold chooseCandidate
    apply Ensures.bind (consult_keeps _ _ _)
    intro live
    apply Ensures.ite
    · intro full
      apply Ensures.bind (sealAtRecovery_seals _ extentId)
      intro _
      exact Ensures.pure fun s sealed _ => sealed
    · intro room
      have earlier : ∀ s, FullSealed sb base maxEnd done s →
          FullSealed sb base maxEnd (done ++ [extentId]) s := by
        intro s owed due
        obtain ⟨other, member, full⟩ := due
        rw [List.mem_append, List.mem_singleton] at member
        rcases member with before | rfl
        · exact owed ⟨other, before, full⟩
        · exact absurd full room
      cases resumed with
      | none => exact Ensures.pure earlier
      | some best =>
        apply Ensures.ite
        · intro _
          exact Ensures.pure earlier
        · intro _
          exact Ensures.pure earlier
  apply loop.strengthen
  intro s _ due
  obtain ⟨extentId, member, _⟩ := due
  simp at member

/-- If sealing is owed, or one of the extents has room and is not the resumed one,
something has been sealed. -/
def OthersSealed (sb : SuperBlock) (base : Nat) (maxEnd : Nat → Option Nat) (owed : Prop)
    (resumed : Option (Nat × Nat)) (extents : List Nat) (s : Recovery) : Prop :=
  (owed ∨ ∃ extentId ∈ extents, recoveredWatermark maxEnd (base + extentId) < sb.extentCapacity ∧
    resumed ≠ some (base + extentId, recoveredWatermark maxEnd (base + extentId))) → SealedLocally s

theorem sealOthers_seal (owed : Prop) (candidates : List Nat) (resumed : Option (Nat × Nat)) :
    Ensures (fun s => owed → SealedLocally s)
      (candidates.foldlM (fun _ extentId => sealOther sb base maxEnd resumed extentId) ())
      (fun _ => OthersSealed sb base maxEnd owed resumed candidates) (fun _ => True) := by
  have loop : Ensures (OthersSealed sb base maxEnd owed resumed [])
      (candidates.foldlM (fun _ extentId => sealOther sb base maxEnd resumed extentId) ())
      (fun _ => OthersSealed sb base maxEnd owed resumed candidates) (fun _ => True) := by
    apply Ensures.foldlM (fun done _ => OthersSealed sb base maxEnd owed resumed done)
    intro done extentId rest _ _
    unfold sealOther
    apply Ensures.ite
    · intro _
      exact (sealAtRecovery_seals _ extentId).weaken fun _ s sealed _ => sealed
    · intro skipped
      apply Ensures.pure
      intro s earlier due
      rcases due with first | ⟨other, member, unsealed⟩
      · exact earlier (.inl first)
      · rw [List.mem_append, List.mem_singleton] at member
        rcases member with before | rfl
        · exact earlier (.inr ⟨other, before, unsealed⟩)
        · exact absurd unsealed skipped
  apply loop.strengthen
  intro s earlier due
  rcases due with first | ⟨extentId, member, _⟩
  · exact earlier first
  · simp at member

/-- Where more than one extent was left open, or a full one, a recovery that ends
without an error has sealed under a local id. -/
theorem resumeOpenExtent_seals {before : Allocator} {disk : Disk}
    (residue : ¬NothingToSeal before maxEnd disk) :
    Ensures (Scanning disk.slot.sb.extentCapacity disk.slot.extentCount before disk)
      (resumeOpenExtent disk.slot.sb disk.slot.base disk.slot.extentCount maxEnd)
      (fun _ => SealedLocally) (fun _ => True) := by
  unfold resumeOpenExtent
  apply Ensures.bindFact (openCandidates_scanning.weakenFail fun _ _ => trivial)
  intro candidates scanned
  subst scanned
  apply Ensures.bind ((chooseCandidates_seal _).strengthen fun _ _ => trivial)
  intro resumed
  apply Ensures.bind (sealOthers_seal _ _ resumed)
  intro _
  have sealed : ∀ s, OthersSealed disk.slot.sb disk.slot.base maxEnd
      (∃ extentId ∈ crashResidue before disk,
        disk.slot.sb.extentCapacity ≤ recoveredWatermark maxEnd (disk.slot.base + extentId))
      resumed (crashResidue before disk) s → SealedLocally s := by
    intro s owed
    apply owed
    by_contra nothing
    simp only [not_or, not_exists, not_and, not_le, ne_eq, not_not] at nothing
    obtain ⟨room, resumes⟩ := nothing
    apply residue
    refine ⟨?_, room⟩
    -- Two candidates with room cannot both be the resumed one.
    have distinct := crashResidue_nodup before disk
    revert distinct room resumes
    rcases crashResidue before disk with _ | ⟨first, _ | ⟨second, rest⟩⟩
    · simp
    · simp
    · intro room resumes distinct
      have one := resumes first (by simp) (room first (by simp))
      have two := resumes second (by simp) (room second (by simp))
      rw [one] at two
      simp only [Option.some.injEq, Prod.mk.injEq, Nat.add_left_cancel_iff] at two
      simp [two.1] at distinct
  cases resumed with
  | none => exact Ensures.pure sealed
  | some found =>
    obtain ⟨id, wm⟩ := found
    have marked : Ensures SealedLocally (markOpen id) (fun _ => SealedLocally) (fun _ => True) :=
      Ensures.modifyGet fun _ known => known.append rfl
    apply Ensures.bind (marked.strengthen sealed)
    intro _
    have counted := consult_keeps True (.refcount id) (fun a => a.refcounts id)
    apply Ensures.bind (counted.strengthen fun _ known _ => known)
    intro participants
    exact Ensures.pure fun _ known => known trivial

end Seals

section Pool

variable {maxEnd : Nat → Option Nat}

/-- Recovery is confined to its device on every disk, and in the end all extents
handed over as open are marked open. -/
structure RecoveryConfined (disks : List Disk) (outcomes : List Recovered) (after : Allocator) :
    Prop where
  devices : ∀ pair ∈ disks.zip outcomes, Confined pair.1.slot.sb.extentCapacity pair.1.slot.base
    pair.1.slot.extentCount pair.2.before pair.2.final
  opened : ∀ outcome ∈ outcomes, ∀ extent, outcome.opened = .ok (some extent) →
    after.state extent.extentId = .opened

variable {a : Allocator} {disks : List Disk}

theorem nothingToSeal_congr {a' : Allocator} (same : a' = { a with state := a'.state })
    (disk : Disk) : NothingToSeal a' maxEnd disk ↔ NothingToSeal a maxEnd disk := by
  have residue : crashResidue a' disk = crashResidue a disk := by
    unfold crashResidue
    congr 1
    funext extentId
    rw [same, leftOpen, leftOpen]
  rw [NothingToSeal, NothingToSeal, residue]

theorem scanning_start (capacity count : Nat) (a : Allocator) (disk : Disk) :
    Scanning capacity count a disk ⟨a, disk.dev, []⟩ :=
  ⟨Confining.start disk.dev, rfl⟩

theorem resumeOpenExtents_frame
    (safe : ∀ disk ∈ disks, disk.slot.base = 0 ∨ NothingToSeal a maxEnd disk) {e : Nat}
    (outside : ∀ disk ∈ disks, ¬(disk.slot.base ≤ e ∧ e < disk.slot.base + disk.slot.extentCount)) :
    (resumeOpenExtents maxEnd a disks).2.state e = a.state e := by
  induction disks generalizing a with
  | nil => rfl
  | cons disk rest ih =>
    have ensures := resumeOpenExtent_confining (safe disk (by simp))
    have start := scanning_start disk.slot.sb.extentCapacity disk.slot.extentCount a disk
    simp only [resumeOpenExtents]
    cases run : Engine.resumeOpenExtent disk.slot.sb disk.slot.base disk.slot.extentCount maxEnd
        ⟨a, disk.dev, []⟩ with
    | error reason s =>
      exact (ensures.error start run).confined.states e (outside disk (by simp))
    | ok opened s =>
      have confining := (ensures.ok start run).2
      have later : ∀ other ∈ rest, other.slot.base = 0 ∨ NothingToSeal s.alloc maxEnd other := by
        intro other member
        rw [nothingToSeal_congr confining.same]
        exact safe other (by simp [member])
      calc
        (resumeOpenExtents maxEnd s.alloc rest).2.state e = s.alloc.state e :=
          ih later fun other member => outside other (by simp [member])
        _ = a.state e := confining.confined.states e (outside disk (by simp))

theorem resumeOpenExtents_confined
    (safe : ∀ disk ∈ disks, disk.slot.base = 0 ∨ NothingToSeal a maxEnd disk)
    (ordered : disks.Pairwise fun left right =>
      left.slot.base + left.slot.extentCount ≤ right.slot.base) :
    RecoveryConfined disks (resumeOpenExtents maxEnd a disks).1 (resumeOpenExtents maxEnd a disks).2 := by
  induction disks generalizing a with
  | nil => exact ⟨by simp [resumeOpenExtents], by simp [resumeOpenExtents]⟩
  | cons disk rest ih =>
    obtain ⟨behind, ordered⟩ := List.pairwise_cons.mp ordered
    have ensures := resumeOpenExtent_confining (safe disk (by simp))
    have start := scanning_start disk.slot.sb.extentCapacity disk.slot.extentCount a disk
    simp only [resumeOpenExtents]
    cases run : Engine.resumeOpenExtent disk.slot.sb disk.slot.base disk.slot.extentCount maxEnd
        ⟨a, disk.dev, []⟩ with
    | error reason s =>
      have confining := ensures.error start run
      refine ⟨?_, ?_⟩
      · intro pair member
        simp only [List.zip_cons_cons, List.zip_nil_right, List.mem_singleton] at member
        subst member
        exact confining.confined
      · intro outcome member extent opened
        rw [List.mem_singleton] at member
        subst member
        cases opened
    | ok opened s =>
      obtain ⟨here, confining⟩ := ensures.ok start run
      have later : ∀ other ∈ rest, other.slot.base = 0 ∨ NothingToSeal s.alloc maxEnd other := by
        intro other member
        rw [nothingToSeal_congr confining.same]
        exact safe other (by simp [member])
      have others := ih later ordered
      refine ⟨?_, ?_⟩
      · intro pair member
        simp only [List.zip_cons_cons, List.mem_cons] at member
        rcases member with rfl | tail
        · exact confining.confined
        · exact others.devices pair tail
      · intro outcome member extent opens
        rcases List.mem_cons.mp member with rfl | tail
        · -- Later devices do not reach the extent that this one opened.
          simp only [Except.ok.injEq] at opens
          obtain ⟨own, state⟩ := here extent opens
          rw [resumeOpenExtents_frame later]
          · exact state
          · intro other among inside
            have apart := behind other among
            omega
        · exact others.opened outcome tail extent opens

/-- In a recovery that ends without an error on every disk, confinement forces every
device behind the first to have nothing to seal. -/
theorem safe_of_confined
    (completed : ∀ outcome ∈ (resumeOpenExtents maxEnd a disks).1, outcome.opened.isOk = true)
    (confined : ∀ pair ∈ disks.zip (resumeOpenExtents maxEnd a disks).1,
      Confined pair.1.slot.sb.extentCapacity pair.1.slot.base pair.1.slot.extentCount
        pair.2.before pair.2.final) :
    ∀ disk ∈ disks, disk.slot.base = 0 ∨ NothingToSeal a maxEnd disk := by
  induction disks generalizing a with
  | nil => simp
  | cons disk rest ih =>
    have start := scanning_start disk.slot.sb.extentCapacity disk.slot.extentCount a disk
    simp only [resumeOpenExtents] at completed confined
    cases run : Engine.resumeOpenExtent disk.slot.sb disk.slot.base disk.slot.extentCount maxEnd
        ⟨a, disk.dev, []⟩ with
    | error reason s =>
      rw [run] at completed
      have failed := completed ⟨a, .error reason, s⟩ (by simp)
      simp [Except.isOk, Except.toBool] at failed
    | ok opened s =>
      rw [run] at completed confined
      have same := (stable_counters a).resumeOpenExtent.ok rfl run
      have here := confined (disk, ⟨a, .ok opened, s⟩) (by simp)
      intro other member
      rcases List.mem_cons.mp member with rfl | tail
      · by_contra unsafeDisk
        rw [not_or] at unsafeDisk
        have sealed := (resumeOpenExtent_seals unsafeDisk.2).ok start run
        exact unsafeDisk.1 (here.base_zero sealed)
      · rw [← nothingToSeal_congr same]
        apply ih _ _ other tail
        · intro outcome later
          exact completed outcome (by simp [later])
        · intro pair later
          exact confined pair (by simp [later])

/-- Recovery is confined wherever every device has base 0 or nothing to seal, and
when no i/o call fails it is confined nowhere else. -/
theorem resumeOpenExtents_confined_iff {manifest : PoolManifest}
    {opening : List (Except String SuperBlock)} {disks : List Disk} {degraded : List String}
    (assembled : assemblePool manifest opening = .ok (disks.map Disk.slot, degraded))
    (a : Allocator) (maxEnd : Nat → Option Nat) :
    ((∀ disk ∈ disks, disk.slot.base = 0 ∨ NothingToSeal a maxEnd disk) →
      RecoveryConfined disks (resumeOpenExtents maxEnd a disks).1
        (resumeOpenExtents maxEnd a disks).2) ∧
    ((∀ outcome ∈ (resumeOpenExtents maxEnd a disks).1, outcome.opened.isOk = true) →
      (RecoveryConfined disks (resumeOpenExtents maxEnd a disks).1
          (resumeOpenExtents maxEnd a disks).2 ↔
        ∀ disk ∈ disks, disk.slot.base = 0 ∨ NothingToSeal a maxEnd disk)) := by
  have slots : disks.map Disk.slot = (assignBases 0 (manifest.devices.zip opening)).1 := by
    unfold assemblePool at assembled
    simp only at assembled
    split at assembled
    · cases assembled
    · simp only [Except.ok.injEq, Prod.mk.injEq] at assembled
      exact assembled.1.symm
  have ordered : disks.Pairwise fun left right =>
      left.slot.base + left.slot.extentCount ≤ right.slot.base := by
    have table := (assignBases_ordered 0 (manifest.devices.zip opening)).2
    rw [← slots, List.pairwise_map] at table
    exact table
  refine ⟨fun safe => resumeOpenExtents_confined safe ordered, fun completed => ⟨?_, ?_⟩⟩
  · intro confined
    exact safe_of_confined completed confined.devices
  · intro safe
    exact resumeOpenExtents_confined safe ordered

end Pool

def smallDisks : List Disk :=
  [⟨⟨smallDisk 1, 0, 15, 1⟩, ⟨fun _ => 0, []⟩⟩, ⟨⟨smallDisk 2, 15, 15, 1⟩, ⟨fun _ => 0, []⟩⟩]

theorem smallDisks_assembled :
    assemblePool smallPool [.ok (smallDisk 1), .ok (smallDisk 2)] =
      .ok (smallDisks.map Disk.slot, []) := by
  decide

def rebuiltAfterCrash (segs : List Segment) : Allocator :=
  (runDraft (Allocator.new 30)
      (segs.map fun s => .allocateInRange s.extentId s.extentId 1)).1.rebuildDerived
    (segs.map fun s => [s])

/-- Two extents of the first disk were open; one of them is sealed again. -/
theorem resumeOpenExtents_confined_first_disk :
    let segs : List Segment := [⟨0, 0, 4096, []⟩, ⟨1, 0, 8192, []⟩]
    RecoveryConfined smallDisks
      (resumeOpenExtents (maxEnds segs) (rebuiltAfterCrash segs) smallDisks).1
      (resumeOpenExtents (maxEnds segs) (rebuiltAfterCrash segs) smallDisks).2 := by
  apply (resumeOpenExtents_confined_iff smallDisks_assembled _ _).1
  intro disk member
  simp only [smallDisks, List.mem_cons, List.not_mem_nil, or_false] at member
  rcases member with rfl | rfl
  · exact .inl rfl
  · right
    have nothing : crashResidue (rebuiltAfterCrash [⟨0, 0, 4096, []⟩, ⟨1, 0, 8192, []⟩])
        ⟨⟨smallDisk 2, 15, 15, 1⟩, ⟨fun _ => 0, []⟩⟩ = [] := by
      decide +kernel
    simp [NothingToSeal, nothing]

theorem not_confined_of_sealed {disks : List Disk} {run : List Recovered × Allocator} {extent : Nat}
    {oe : OpenExtent} {others : List (Except Error (Option OpenExtent))}
    (number : oe.extentId = extent)
    (evaluated : run.1.map Recovered.opened = .ok (some oe) :: others ∧ run.2.state extent = .sealed) :
    run.1.map Recovered.opened = .ok (some oe) :: others ∧ run.2.state extent = .sealed ∧
      ¬RecoveryConfined disks run.1 run.2 := by
  obtain ⟨opened, sealed⟩ := evaluated
  refine ⟨opened, sealed, fun confined => ?_⟩
  have first : .ok (some oe) ∈ run.1.map Recovered.opened := by
    rw [opened]
    exact List.mem_cons_self
  obtain ⟨outcome, member, result⟩ := List.mem_map.mp first
  have state := confined.opened outcome member _ result
  rw [number, sealed] at state
  cases state

/-- The first disk resumes extent 0.  On the second disk local extent 0 has to be
sealed, and this seals the extent 0 of the pool. -/
theorem resumeOpenExtents_seals_other_disk :
    let segs : List Segment := [⟨0, 0, 4096, []⟩, ⟨15, 0, 4096, []⟩, ⟨16, 0, 8192, []⟩]
    let run := resumeOpenExtents (maxEnds segs) (rebuiltAfterCrash segs) smallDisks
    assemblePool smallPool [.ok (smallDisk 1), .ok (smallDisk 2)] =
        .ok (smallDisks.map Disk.slot, []) ∧
      run.1.map Recovered.opened =
        [.ok (some ⟨0, 4096, 4096, 1⟩), .ok (some ⟨16, 8192, 8192, 1⟩)] ∧
      run.2.state 0 = .sealed ∧ ¬RecoveryConfined smallDisks run.1 run.2 := by
  -- the run is evaluated once
  have evaluated :
      let segs : List Segment := [⟨0, 0, 4096, []⟩, ⟨15, 0, 4096, []⟩, ⟨16, 0, 8192, []⟩]
      let run := resumeOpenExtents (maxEnds segs) (rebuiltAfterCrash segs) smallDisks
      run.1.map Recovered.opened =
          [.ok (some ⟨0, 4096, 4096, 1⟩), .ok (some ⟨16, 8192, 8192, 1⟩)] ∧
        run.2.state 0 = .sealed := by
    decide +kernel
  exact ⟨smallDisks_assembled, not_confined_of_sealed rfl evaluated⟩

end FastS3.Engine
