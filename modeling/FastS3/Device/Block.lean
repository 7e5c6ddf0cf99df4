import FastS3.Core.Bytes

namespace FastS3.Device

open FastS3.Core

/-! A block device: its bytes, and the faults its next calls will meet.

A call beyond the end of the device is one of the faults.  A failing write may
have stored any number of its first bytes.
-/

structure BlockDevice where
  content : Nat → UInt8
  /-- One entry for each call to come; `some n` fails after `n` bytes.  Calls past
  the end of the list succeed. -/
  faults : List (Option Nat)

namespace BlockDevice

def read (dev : BlockDevice) (off len : Nat) : Bytes :=
  (List.range len).map fun i => dev.content (off + i)

def store (dev : BlockDevice) (data : Bytes) (off : Nat) : BlockDevice :=
  { dev with
    content := fun address =>
      if off ≤ address ∧ address < off + data.length then data.getD (address - off) 0
      else dev.content address }

def nextFault (dev : BlockDevice) : Option Nat × BlockDevice :=
  (dev.faults.headD none, { dev with faults := dev.faults.tail })

/-- `check_aligned`. -/
def aligned (off len : Nat) : Bool :=
  decide (off % sectorSize = 0) && decide (len % sectorSize = 0)

def preadAligned (dev : BlockDevice) (off len : Nat) : Except Error Bytes × BlockDevice :=
  if aligned off len then
    match dev.nextFault with
    | (none, dev) => (.ok (dev.read off len), dev)
    | (some _, dev) => (.error .io, dev)
  else (.error .io, dev)

def pwriteAligned (dev : BlockDevice) (data : Bytes) (off : Nat) :
    Except Error Unit × BlockDevice :=
  if aligned off data.length then
    match dev.nextFault with
    | (none, dev) => (.ok (), dev.store data off)
    | (some stored, dev) => (.error .io, dev.store (data.take stored) off)
  else (.error .io, dev)

variable (dev : BlockDevice)

@[simp] theorem nextFault_content : dev.nextFault.2.content = dev.content := rfl

@[simp] theorem read_length (off len : Nat) : (dev.read off len).length = len := by
  simp [read]

theorem read_store_same (data : Bytes) (off : Nat) :
    (dev.store data off).read off data.length = data := by
  apply List.ext_getElem
  · simp
  · intro i inside stored
    simp [read, store, stored]

theorem read_store_apart (data : Bytes) {off other len : Nat}
    (apart : other + len ≤ off ∨ off + data.length ≤ other) :
    (dev.store data off).read other len = dev.read other len := by
  unfold read
  apply List.map_congr_left
  intro i inside
  have small := List.mem_range.mp inside
  simp only [store]
  rw [if_neg]
  omega

theorem preadAligned_ok {dev after : BlockDevice} {off len : Nat} {bytes : Bytes}
    (run : dev.preadAligned off len = (.ok bytes, after)) :
    bytes = dev.read off len ∧ after.content = dev.content := by
  unfold preadAligned at run
  split at run
  · cases fault : dev.nextFault with
    | mk outcome next =>
      have same : next.content = dev.content := by
        rw [← dev.nextFault_content, fault]
      rw [fault] at run
      cases outcome with
      | none =>
        simp only [Prod.mk.injEq, Except.ok.injEq] at run
        obtain ⟨rfl, rfl⟩ := run
        exact ⟨by simp only [read, same], same⟩
      | some stored => simp at run
  · simp at run

end BlockDevice

end FastS3.Device
