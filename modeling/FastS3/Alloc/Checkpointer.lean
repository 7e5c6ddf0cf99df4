import FastS3.Core.Checkpoint
import FastS3.Core.SuperBlock
import FastS3.Data.DoubleBuffer
import FastS3.Data.Fallible
import FastS3.Device.Block

namespace FastS3.Alloc

open FastS3.Core Data Device

/-! The double-buffered checkpoint of a device. -/

abbrev DeviceM := EStateM Error BlockDevice

namespace Checkpointer

structure SlotState where
  data : CheckpointData
  generation : Option Nat
  valid : Bool
deriving Repr, DecidableEq

def preadAligned (off len : Nat) : DeviceM Bytes := fun dev =>
  match dev.preadAligned off len with
  | (.ok bytes, dev) => .ok bytes dev
  | (.error e, dev) => .error e dev

def pwriteAligned (data : Bytes) (off : Nat) : DeviceM Unit := fun dev =>
  match dev.pwriteAligned data off with
  | (.ok (), dev) => .ok () dev
  | (.error e, dev) => .error e dev

def slotOffset (sb : SuperBlock) (slot : Nat) : Nat :=
  sb.checkpointOffset + slot * sb.checkpointLen

/-- What the bytes of a slot read as; a slot that was never written or is torn gives
a placeholder. -/
def slotState (buf : Bytes) : SlotState :=
  match CheckpointData.decode buf with
  | .ok data => { data := data, generation := some data.generation, valid := true }
  | .error _ =>
    { data := { generation := 0, seq := 0, totalAlloc := 0, totalFree := 0, bitmap := [] }
      generation := none
      valid := false }

def readSlot (sb : SuperBlock) (slot : Nat) : DeviceM SlotState := do
  let buf ← preadAligned (slotOffset sb slot) sb.checkpointLen
  return slotState buf

def loadLatest (sb : SuperBlock) : DeviceM (Option CheckpointData) := do
  let a ← readSlot sb 0
  let b ← readSlot sb 1
  match a.valid, b.valid with
  | false, false => return none
  | true, false => return some a.data
  | false, true => return some b.data
  | true, true =>
    if a.data.generation ≥ b.data.generation then return some a.data else return some b.data

/-- `max_gen + 1` in the arithmetic of a release build; `None` is below every
generation. -/
def newGen (a b : SlotState) : Nat :=
  let maxGen :=
    match a.generation, b.generation with
    | some ga, some gb => max ga gb
    | some ga, none => ga
    | none, some gb => gb
    | none, none => 0
  (maxGen + 1) % 2 ^ 64

def target (a b : SlotState) : Nat :=
  match a.generation, b.generation with
  | none, _ => 0
  | some _, none => 1
  | some ga, some gb => if ga ≤ gb then 0 else 1

def save (sb : SuperBlock) (cp : CheckpointData) : DeviceM Nat := do
  let a ← readSlot sb 0
  let b ← readSlot sb 1
  let data := { cp with generation := newGen a b }
  match data.encode sb.checkpointLen with
  | .ok buf =>
    pwriteAligned buf (slotOffset sb (target a b))
    return newGen a b
  | .error e => throw e

/-- The devices that saves lead to, with the completed saves and their generations,
newest first. A crash in a save leaves other bytes in the target slot, which do not
decode. -/
inductive Saved (sb : SuperBlock) (dev : BlockDevice) :
    List (CheckpointData × Nat) → BlockDevice → Prop where
  | start : Saved sb dev [] dev
  | completed {done : List (CheckpointData × Nat)} {now after : BlockDevice} {cp : CheckpointData}
      {gen : Nat} (before : Saved sb dev done now) (run : save sb cp now = .ok gen after) :
      Saved sb dev ((cp, gen) :: done) after
  | torn {done : List (CheckpointData × Nat)} {now first second : BlockDevice} {a b : SlotState}
      {bytes : Bytes} {reason : Error} (before : Saved sb dev done now)
      (readA : readSlot sb 0 now = .ok a first) (readB : readSlot sb 1 first = .ok b second)
      (length : bytes.length = sb.checkpointLen)
      (rejected : CheckpointData.decode bytes = .error reason) :
      Saved sb dev done (second.store bytes (slotOffset sb (target a b)))

def Untied (sb : SuperBlock) (dev : BlockDevice) : Prop :=
  ∀ a b, readSlot sb 0 dev = .ok a dev → readSlot sb 1 dev = .ok b dev → a.valid → b.valid →
    a.data.generation = b.data.generation → a.data = b.data

def lastSaved (initial : CheckpointData) : List (CheckpointData × Nat) → CheckpointData
  | [] => initial
  | (cp, gen) :: _ => { cp with generation := gen }

/-! The two slots as a double buffer of decoded checkpoints. -/

def slotBytes (sb : SuperBlock) (dev : BlockDevice) (slot : Bool) : Bytes :=
  dev.read (slotOffset sb slot.toNat) sb.checkpointLen

def slots (sb : SuperBlock) (dev : BlockDevice) : DoubleBuffer CheckpointData :=
  fun slot => (CheckpointData.decode (slotBytes sb dev slot)).toOption

abbrev generationOf : CheckpointData → Nat :=
  CheckpointData.generation

structure Ready (sb : SuperBlock) (dev : BlockDevice) : Prop where
  quiet : dev.faults = []
  aligned : ∀ slot : Bool, BlockDevice.aligned (slotOffset sb slot.toNat) sb.checkpointLen = true

variable {sb : SuperBlock} {dev : BlockDevice}

theorem nextFault_quiet (quiet : dev.faults = []) : dev.nextFault = (none, dev) := by
  cases dev
  simp_all [BlockDevice.nextFault]

theorem Ready.read (ready : Ready sb dev) (slot : Bool) :
    readSlot sb slot.toNat dev = .ok (slotState (slotBytes sb dev slot)) dev := by
  have bytes : preadAligned (slotOffset sb slot.toNat) sb.checkpointLen dev =
      .ok (slotBytes sb dev slot) dev := by
    unfold preadAligned BlockDevice.preadAligned
    rw [if_pos (ready.aligned slot), nextFault_quiet ready.quiet]
    rfl
  exact bind_eq_ok.mpr ⟨_, _, bytes, rfl⟩

theorem Ready.store (ready : Ready sb dev) (bytes : Bytes) (off : Nat) :
    Ready sb (dev.store bytes off) :=
  ⟨ready.quiet, ready.aligned⟩

variable {cp : CheckpointData} {after : BlockDevice} {gen len : Nat}

theorem slotState_of_slots {slot : Bool} (found : slots sb dev slot = some cp) :
    slotState (slotBytes sb dev slot) =
      { data := cp, generation := some cp.generation, valid := true } := by
  unfold slots at found
  unfold slotState
  cases decoded : CheckpointData.decode (slotBytes sb dev slot) with
  | ok data =>
    rw [decoded] at found
    cases found
    rfl
  | error e =>
    rw [decoded] at found
    cases found

theorem aligned_of_read {slot : Nat} {state : SlotState}
    (run : readSlot sb slot dev = .ok state after) :
    BlockDevice.aligned (slotOffset sb slot) sb.checkpointLen = true := by
  obtain ⟨buf, middle, bytes, _⟩ := bind_eq_ok.mp run
  cases aligned : BlockDevice.aligned (slotOffset sb slot) sb.checkpointLen with
  | true => rfl
  | false => simp [preadAligned, BlockDevice.preadAligned, aligned] at bytes

theorem loadLatest_ready (ready : Ready sb dev) :
    loadLatest sb dev = .ok ((slots sb dev).latest generationOf) dev := by
  apply bind_eq_ok.mpr
  refine ⟨_, _, ready.read false, ?_⟩
  apply bind_eq_ok.mpr
  refine ⟨_, _, ready.read true, ?_⟩
  unfold DoubleBuffer.latest slots slotState
  cases CheckpointData.decode (slotBytes sb dev false) with
  | ok a =>
    cases CheckpointData.decode (slotBytes sb dev true) with
    | ok b =>
      by_cases newer : b.generation ≤ a.generation
      · simp [Except.toOption, newer]
      · simp [Except.toOption, newer]
    | error _ => simp [Except.toOption]
  | error _ =>
    cases CheckpointData.decode (slotBytes sb dev true) with
    | ok b => simp [Except.toOption]
    | error _ => simp [Except.toOption]

theorem target_eq (sb : SuperBlock) (dev : BlockDevice) :
    target (slotState (slotBytes sb dev false)) (slotState (slotBytes sb dev true)) =
      ((slots sb dev).target generationOf).toNat := by
  unfold target DoubleBuffer.target slots slotState
  cases CheckpointData.decode (slotBytes sb dev false) with
  | ok a =>
    cases CheckpointData.decode (slotBytes sb dev true) with
    | ok b =>
      by_cases older : a.generation ≤ b.generation
      · simp [Except.toOption, older]
      · simp [Except.toOption, older]
    | error _ => rfl
  | error _ => rfl

theorem newGen_eq (sb : SuperBlock) (dev : BlockDevice) :
    newGen (slotState (slotBytes sb dev false)) (slotState (slotBytes sb dev true)) =
      ((slots sb dev).maxGen generationOf + 1) % 2 ^ 64 := by
  unfold newGen DoubleBuffer.maxGen slots slotState
  cases CheckpointData.decode (slotBytes sb dev false) with
  | ok a =>
    cases CheckpointData.decode (slotBytes sb dev true) with
    | ok b => rfl
    | error _ => rfl
  | error _ =>
    cases CheckpointData.decode (slotBytes sb dev true) with
    | ok b => rfl
    | error _ => rfl

theorem slots_store (sb : SuperBlock) (dev : BlockDevice) (slot : Bool) {bytes : Bytes}
    (length : bytes.length = sb.checkpointLen) :
    slots sb (dev.store bytes (slotOffset sb slot.toNat)) =
      (slots sb dev).put slot (CheckpointData.decode bytes).toOption := by
  funext other
  by_cases same : other = slot
  · subst same
    simp only [slots, slotBytes, DoubleBuffer.put, if_pos, ← length, BlockDevice.read_store_same]
  · have apart : slotOffset sb other.toNat + sb.checkpointLen ≤ slotOffset sb slot.toNat ∨
        slotOffset sb slot.toNat + bytes.length ≤ slotOffset sb other.toNat := by
      rw [length]
      unfold slotOffset
      cases other with
      | false =>
        cases slot with
        | false => exact absurd rfl same
        | true => simp
      | true =>
        cases slot with
        | false => simp
        | true => exact absurd rfl same
    simp only [slots, slotBytes, DoubleBuffer.put, if_neg same]
    rw [BlockDevice.read_store_apart dev bytes apart]

theorem save_fits (ready : Ready sb dev) (cp : CheckpointData) (fits : cp.need ≤ sb.checkpointLen) :
    ∃ bytes, { cp with generation := ((slots sb dev).maxGen generationOf + 1) % 2 ^ 64 }.encode
        sb.checkpointLen = .ok bytes ∧
      save sb cp dev = .ok (((slots sb dev).maxGen generationOf + 1) % 2 ^ 64)
        (dev.store bytes (slotOffset sb ((slots sb dev).target generationOf).toNat)) := by
  obtain ⟨bytes, encoded⟩ := (CheckpointData.encode_isOk_iff
    { cp with generation := ((slots sb dev).maxGen generationOf + 1) % 2 ^ 64 } _).mpr fits
  refine ⟨bytes, encoded, ?_⟩
  apply bind_eq_ok.mpr
  refine ⟨_, _, ready.read false, ?_⟩
  apply bind_eq_ok.mpr
  refine ⟨_, _, ready.read true, ?_⟩
  rw [newGen_eq, target_eq, encoded]
  apply bind_eq_ok.mpr
  refine ⟨(), _, ?_, rfl⟩
  unfold pwriteAligned BlockDevice.pwriteAligned
  rw [nextFault_quiet ready.quiet, CheckpointData.encode_length encoded, if_pos (ready.aligned _)]

theorem save_ok (ready : Ready sb dev) (run : save sb cp dev = .ok gen after) :
    gen = ((slots sb dev).maxGen generationOf + 1) % 2 ^ 64 ∧
      ∃ bytes, { cp with generation := gen }.encode sb.checkpointLen = .ok bytes ∧
        after = dev.store bytes (slotOffset sb ((slots sb dev).target generationOf).toNat) := by
  obtain ⟨a, first, readA, rest⟩ := bind_eq_ok.mp run
  obtain ⟨b, second, readB, rest⟩ := bind_eq_ok.mp rest
  rw [show (0 : Nat) = false.toNat from rfl, ready.read] at readA
  cases readA
  rw [show (1 : Nat) = true.toNat from rfl, ready.read] at readB
  cases readB
  rw [newGen_eq, target_eq] at rest
  generalize slotOffset sb ((slots sb dev).target generationOf).toNat = off at *
  cases encoded : CheckpointData.encode
      { cp with generation := ((slots sb dev).maxGen generationOf + 1) % 2 ^ 64 }
      sb.checkpointLen with
  | error e =>
    rw [encoded] at rest
    simp at rest
  | ok bytes =>
    rw [encoded] at rest
    obtain ⟨_, written, wrote, done⟩ := bind_eq_ok.mp rest
    simp only [pure_eq_ok] at done
    obtain ⟨rfl, rfl⟩ := done
    refine ⟨rfl, bytes, encoded, ?_⟩
    unfold pwriteAligned BlockDevice.pwriteAligned at wrote
    rw [nextFault_quiet ready.quiet] at wrote
    split at wrote
    · next issued =>
        split at issued
        · cases issued
          cases wrote
          rfl
        · cases issued
    · cases wrote

theorem loadLatest_bitmap_length (ready : Ready sb dev)
    (loaded : loadLatest sb dev = .ok (some cp) dev) : cp.bitmap.length < 2 ^ 32 := by
  rw [loadLatest_ready ready, EStateM.Result.ok.injEq] at loaded
  obtain ⟨slot, found⟩ := DoubleBuffer.mem_of_latest loaded.1
  unfold slots at found
  cases decoded : CheckpointData.decode (slotBytes sb dev slot) with
  | ok data =>
    rw [decoded] at found
    cases found
    exact CheckpointData.decode_bitmap_length decoded
  | error e =>
    rw [decoded] at found
    cases found

/-- What holds of the device after any saves: the last completed one is the newest
slot, and generations have grown by one with each. -/
structure Progress (sb : SuperBlock) (initial : CheckpointData) (done : List (CheckpointData × Nat))
    (now : BlockDevice) : Prop where
  ready : Ready sb now
  newest : (slots sb now).Newest generationOf (lastSaved initial done)
  counted : (lastSaved initial done).generation = initial.generation + done.length
  increasing : (done.map Prod.snd ++ [initial.generation]).Pairwise (· > ·)

variable {initial : CheckpointData} {done : List (CheckpointData × Nat)}

theorem Progress.bound (progress : Progress sb initial done dev)
    (member : gen ∈ done.map Prod.snd ++ [initial.generation]) :
    gen ≤ (lastSaved initial done).generation := by
  have increasing := progress.increasing
  cases done with
  | nil =>
    rw [List.map_nil, List.nil_append, List.mem_singleton] at member
    exact Nat.le_of_eq member
  | cons entry older =>
    rw [List.map_cons, List.cons_append, List.pairwise_cons] at increasing
    rw [List.map_cons, List.cons_append, List.mem_cons] at member
    rcases member with rfl | member
    · exact Nat.le_refl _
    · exact Nat.le_of_lt (increasing.1 gen member)

theorem Progress.completed (progress : Progress sb initial done dev)
    (run : save sb cp dev = .ok gen after) (encodable : cp.Encodable)
    (room : initial.generation + (done.length + 1) < 2 ^ 64) :
    Progress sb initial ((cp, gen) :: done) after := by
  obtain ⟨generation, bytes, encoded, rfl⟩ := save_ok progress.ready run
  rw [progress.newest.maxGen, generationOf, progress.counted, Nat.mod_eq_of_lt (by omega)] at generation
  have newer : (lastSaved initial done).generation < gen := by
    rw [progress.counted, generation]
    omega
  have decoded : CheckpointData.decode bytes = .ok { cp with generation := gen } := by
    apply CheckpointData.decode_encode _ encoded
    exact ⟨by simp only; omega, encodable.seq, encodable.totalAlloc, encodable.totalFree,
      encodable.bitmap⟩
  refine ⟨progress.ready.store _ _, ?_, ?_, ?_⟩
  · rw [slots_store sb dev _ (CheckpointData.encode_length encoded), decoded]
    exact progress.newest.written newer
  · simp only [lastSaved, List.length_cons]
    omega
  · rw [List.map_cons, List.cons_append, List.pairwise_cons]
    refine ⟨?_, progress.increasing⟩
    intro older member
    have bound := progress.bound member
    omega

theorem Progress.torn (progress : Progress sb initial done dev) {bytes : Bytes} {reason : Error}
    (length : bytes.length = sb.checkpointLen)
    (rejected : CheckpointData.decode bytes = .error reason) :
    Progress sb initial done
      (dev.store bytes (slotOffset sb ((slots sb dev).target generationOf).toNat)) := by
  refine ⟨progress.ready.store _ _, ?_, progress.counted, progress.increasing⟩
  rw [slots_store sb dev _ length, rejected]
  exact progress.newest.torn

theorem Saved.progress {now : BlockDevice} (history : Saved sb dev done now)
    (start : Progress sb initial [] dev) (encodable : ∀ entry ∈ done, entry.1.Encodable)
    (room : initial.generation + done.length < 2 ^ 64) : Progress sb initial done now := by
  induction history with
  | start => exact start
  | completed before run ih =>
    have earlier := ih (fun entry member => encodable entry (List.mem_cons_of_mem _ member))
      (by rw [List.length_cons] at room; omega)
    exact earlier.completed run (encodable _ List.mem_cons_self) room
  | torn before readA readB length rejected ih =>
    have earlier := ih encodable room
    rw [show (0 : Nat) = false.toNat from rfl, earlier.ready.read] at readA
    cases readA
    rw [show (1 : Nat) = true.toNat from rfl, earlier.ready.read] at readB
    cases readB
    rw [target_eq]
    exact earlier.torn length rejected

/-- After any saves, completed or torn, the device holds the last completed
checkpoint, the generations have grown, and the next save spares the slot it is in. -/
theorem loadLatest_after_saves {sb : SuperBlock} {dev now : BlockDevice} {initial : CheckpointData}
    {done : List (CheckpointData × Nat)} (quiet : dev.faults = [])
    (start : loadLatest sb dev = .ok (some initial) dev)
    (untied : Untied sb dev) (history : Saved sb dev done now)
    (encodable : ∀ entry ∈ done, entry.1.Encodable)
    (room : initial.generation + done.length < 2 ^ 64) :
    loadLatest sb now = .ok (some (lastSaved initial done)) now ∧
      (done.map Prod.snd ++ [initial.generation]).Pairwise (· > ·) ∧
      ∀ a b, readSlot sb 0 now = .ok a now → readSlot sb 1 now = .ok b now →
        ∃ spared, readSlot sb (1 - target a b) now = .ok spared now ∧ spared.valid ∧
          spared.data = lastSaved initial done := by
  obtain ⟨a, first, readA, rest⟩ := bind_eq_ok.mp start
  obtain ⟨b, second, readB, _⟩ := bind_eq_ok.mp rest
  have ready : Ready sb dev := by
    refine ⟨quiet, ?_⟩
    intro slot
    cases slot with
    | false => exact aligned_of_read readA
    | true => exact aligned_of_read readB
  have current : (slots sb dev).latest generationOf = some initial := by
    rw [loadLatest_ready ready, EStateM.Result.ok.injEq] at start
    exact start.1
  have newest : (slots sb dev).Newest generationOf initial := by
    apply DoubleBuffer.newest_of_latest current
    intro x y foundX foundY
    have same := untied _ _ (ready.read false) (ready.read true)
    rw [slotState_of_slots foundX, slotState_of_slots foundY] at same
    exact same rfl rfl
  have progress := history.progress ⟨ready, newest, rfl, by simp⟩ encodable room
  refine ⟨?_, progress.increasing, ?_⟩
  · rw [loadLatest_ready progress.ready, progress.newest.latest]
  · intro x y readX readY
    rw [show (0 : Nat) = false.toNat from rfl, progress.ready.read] at readX
    cases readX
    rw [show (1 : Nat) = true.toNat from rfl, progress.ready.read] at readY
    cases readY
    rw [target_eq]
    have other : 1 - ((slots sb now).target generationOf).toNat =
        (!(slots sb now).target generationOf).toNat := by
      cases (slots sb now).target generationOf with
      | false => rfl
      | true => rfl
    rw [other]
    refine ⟨_, progress.ready.read _, ?_⟩
    rw [slotState_of_slots progress.newest.survives]
    exact ⟨rfl, rfl⟩

def smallBlock (checkpointLen : Nat) : SuperBlock where
  uuid := zeroBytes 16
  layoutVersion := layoutVersion
  deviceGeneration := 1
  extentSize := 4 * 1024 * 1024
  checkpointOffset := reservedRegionEnd
  checkpointLen := checkpointLen
  dataStart := reservedRegionEnd + 2 * checkpointLen
  dataEnd := reservedRegionEnd + 2 * checkpointLen + 8 * 4 * 1024 * 1024
  features := 7
  metadataOffset := 0
  metadataLen := 0

def byteCheckpoint (generation seq : Nat) : CheckpointData where
  generation := generation
  seq := seq
  totalAlloc := 0
  totalFree := 8
  bitmap := [0]

def withSlots (sb : SuperBlock) (a b : CheckpointData) : BlockDevice :=
  let blank : BlockDevice := { content := fun _ => 0, faults := [] }
  let bytesA := (a.encode sb.checkpointLen).toOption.getD []
  let bytesB := (b.encode sb.checkpointLen).toOption.getD []
  (blank.store bytesA (slotOffset sb false.toNat)).store bytesB (slotOffset sb true.toNat)

theorem slots_withSlots {a b : CheckpointData} (fitsA : a.need ≤ sb.checkpointLen)
    (fitsB : b.need ≤ sb.checkpointLen) (encodableA : a.Encodable) (encodableB : b.Encodable) :
    slots sb (withSlots sb a b) = fun slot => some (if slot then b else a) := by
  obtain ⟨bytesA, encodedA⟩ := (a.encode_isOk_iff _).mpr fitsA
  obtain ⟨bytesB, encodedB⟩ := (b.encode_isOk_iff _).mpr fitsB
  unfold withSlots
  rw [encodedA, encodedB]
  dsimp only [Except.toOption, Option.getD]
  rw [slots_store sb _ true (CheckpointData.encode_length encodedB),
    slots_store sb _ false (CheckpointData.encode_length encodedA),
    CheckpointData.decode_encode encodableA encodedA, CheckpointData.decode_encode encodableB encodedB]
  funext slot
  cases slot with
  | false => rfl
  | true => rfl

theorem withSlots_ready (aligned : len % sectorSize = 0) (a b : CheckpointData) :
    Ready (smallBlock len) (withSlots (smallBlock len) a b) := by
  refine ⟨rfl, ?_⟩
  intro slot
  unfold sectorSize at aligned
  cases slot with
  | false => simp [BlockDevice.aligned, slotOffset, smallBlock, reservedRegionEnd, sectorSize, aligned]
  | true =>
    simp [BlockDevice.aligned, slotOffset, smallBlock, reservedRegionEnd, sectorSize, aligned]
    omega

theorem slots_byteCheckpoints (genA seqA genB seqB : Nat) (fits : 53 ≤ len)
    (bounds : genA < 2 ^ 64 ∧ seqA < 2 ^ 64 ∧ genB < 2 ^ 64 ∧ seqB < 2 ^ 64) :
    slots (smallBlock len)
        (withSlots (smallBlock len) (byteCheckpoint genA seqA) (byteCheckpoint genB seqB)) =
      fun slot => some (if slot then byteCheckpoint genB seqB else byteCheckpoint genA seqA) := by
  obtain ⟨genA64, seqA64, genB64, seqB64⟩ := bounds
  exact slots_withSlots fits fits
    ⟨genA64, seqA64, by simp [byteCheckpoint], by simp [byteCheckpoint], by simp [byteCheckpoint]⟩
    ⟨genB64, seqB64, by simp [byteCheckpoint], by simp [byteCheckpoint], by simp [byteCheckpoint]⟩

theorem untied_of_slots {a b : CheckpointData} (ready : Ready sb dev)
    (content : slots sb dev = fun slot => some (if slot then b else a))
    (distinct : a.generation ≠ b.generation) : Untied sb dev := by
  intro x y readX readY _ _ tied
  rw [show (0 : Nat) = false.toNat from rfl, ready.read, slotState_of_slots (congrFun content false)]
    at readX
  rw [show (1 : Nat) = true.toNat from rfl, ready.read, slotState_of_slots (congrFun content true)]
    at readY
  cases readX
  cases readY
  exact absurd tied distinct

/-- One completed save over generations 1 and 2. -/
theorem loadLatest_after_saves_once :
    ∃ after, save (smallBlock 4096) (byteCheckpoint 0 7)
        (withSlots (smallBlock 4096) (byteCheckpoint 1 0) (byteCheckpoint 2 5)) = .ok 3 after ∧
      loadLatest (smallBlock 4096) after = .ok (some (byteCheckpoint 3 7)) after := by
  have ready := withSlots_ready (show 4096 % sectorSize = 0 from rfl) (byteCheckpoint 1 0)
    (byteCheckpoint 2 5)
  have content := slots_byteCheckpoints 1 0 2 5 (show 53 ≤ 4096 by decide) (by decide)
  obtain ⟨bytes, _, run⟩ := save_fits ready (byteCheckpoint 0 7) (by decide)
  have loaded := loadLatest_ready ready
  rw [content] at run loaded
  exact ⟨_, run, (loadLatest_after_saves rfl loaded (untied_of_slots ready content (by decide))
    (.completed .start run) (by simpa using ⟨by decide, by decide, by decide, by decide, by decide⟩)
    (by decide)).1⟩

theorem long_bitmap_lost {bitmap : Bytes} (aligned : len % sectorSize = 0)
    (long : 2 ^ 32 ≤ bitmap.length) (fits : 52 + bitmap.length ≤ len) :
    ∃ after, save (smallBlock len) { byteCheckpoint 0 7 with bitmap := bitmap }
        (withSlots (smallBlock len) (byteCheckpoint 1 5) (byteCheckpoint 2 6)) = .ok 3 after ∧
      loadLatest (smallBlock len) after ≠
        .ok (some { byteCheckpoint 3 7 with bitmap := bitmap }) after := by
  have ready := withSlots_ready aligned (byteCheckpoint 1 5) (byteCheckpoint 2 6)
  have content := slots_byteCheckpoints 1 5 2 6 (show 53 ≤ len by omega) (by decide)
  have enough : CheckpointData.need { byteCheckpoint 0 7 with bitmap := bitmap } ≤
      (smallBlock len).checkpointLen := by
    simp only [CheckpointData.need, cpHeader, smallBlock]
    omega
  obtain ⟨bytes, _, run⟩ := save_fits ready _ enough
  rw [content] at run
  refine ⟨_, run, ?_⟩
  intro back
  have short := loadLatest_bitmap_length (ready.store _ _) back
  exact absurd long (Nat.not_le.mpr short)

/-- A torn save over two slots of generation 1 leaves the other of them; generation
`2 ^ 64 - 1` is followed by 0, which is not the latest; and a bitmap of `2 ^ 32` bytes
is saved but does not come back. -/
theorem torn_save_after_tie :
    (∃ now, Saved (smallBlock 4096)
        (withSlots (smallBlock 4096) (byteCheckpoint 1 5) (byteCheckpoint 1 9)) [] now ∧
      loadLatest (smallBlock 4096)
          (withSlots (smallBlock 4096) (byteCheckpoint 1 5) (byteCheckpoint 1 9)) =
        .ok (some (byteCheckpoint 1 5))
          (withSlots (smallBlock 4096) (byteCheckpoint 1 5) (byteCheckpoint 1 9)) ∧
      loadLatest (smallBlock 4096) now = .ok (some (byteCheckpoint 1 9)) now) ∧
    (∃ after, save (smallBlock 4096) (byteCheckpoint 0 7)
        (withSlots (smallBlock 4096) (byteCheckpoint (2 ^ 64 - 2) 5)
          (byteCheckpoint (2 ^ 64 - 1) 6)) = .ok 0 after ∧
      loadLatest (smallBlock 4096) after = .ok (some (byteCheckpoint (2 ^ 64 - 1) 6)) after) ∧
    ∃ after, save (smallBlock (2 ^ 32 + 4096)) { byteCheckpoint 0 7 with bitmap := zeroBytes (2 ^ 32) }
        (withSlots (smallBlock (2 ^ 32 + 4096)) (byteCheckpoint 1 5) (byteCheckpoint 2 6)) = .ok 3 after ∧
      loadLatest (smallBlock (2 ^ 32 + 4096)) after ≠
        .ok (some { byteCheckpoint 3 7 with bitmap := zeroBytes (2 ^ 32) }) after := by
  refine ⟨?_, ?_, ?_⟩
  · have ready := withSlots_ready (show 4096 % sectorSize = 0 from rfl) (byteCheckpoint 1 5)
      (byteCheckpoint 1 9)
    have content := slots_byteCheckpoints 1 5 1 9 (show 53 ≤ 4096 by decide) (by decide)
    have loaded := loadLatest_ready ready
    have torn : CheckpointData.decode (zeroBytes 4096) =
        .error (.corrupt "checkpoint magic mismatch") := by decide +kernel
    refine ⟨_, .torn .start (ready.read false) (ready.read true) (by simp; rfl) torn, ?_, ?_⟩
    · rw [loaded, content]
      rfl
    · rw [target_eq, loadLatest_ready (ready.store _ _), slots_store _ _ _ (by simp; rfl), content, torn]
      rfl
  · have ready := withSlots_ready (show 4096 % sectorSize = 0 from rfl) (byteCheckpoint (2 ^ 64 - 2) 5)
      (byteCheckpoint (2 ^ 64 - 1) 6)
    have content := slots_byteCheckpoints (2 ^ 64 - 2) 5 (2 ^ 64 - 1) 6 (show 53 ≤ 4096 by decide)
      (by decide)
    obtain ⟨bytes, encoded, run⟩ := save_fits ready (byteCheckpoint 0 7) (by decide)
    rw [content] at encoded
    have decoded := CheckpointData.decode_encode ⟨by decide, by decide, by decide, by decide, by decide⟩
      encoded
    refine ⟨_, by rw [run, content]; rfl, ?_⟩
    rw [loadLatest_ready (ready.store _ _), slots_store _ _ _ (CheckpointData.encode_length encoded),
      content, decoded]
    rfl
  · exact long_bitmap_lost (show (2 ^ 32 + 4096) % sectorSize = 0 from rfl)
      (Nat.le_of_eq (zeroBytes_length _).symm)
      (Nat.le_trans (Nat.add_le_add_left (Nat.le_of_eq (zeroBytes_length _)) _) (by decide))

end Checkpointer

end FastS3.Alloc
