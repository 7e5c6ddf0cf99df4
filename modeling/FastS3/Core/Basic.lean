import Mathlib.Algebra.Group.Int.Defs
import Mathlib.Algebra.GroupWithZero.Nat
import Mathlib.Data.Nat.Basic

namespace FastS3.Core

/-! Constants, the error type and the small arithmetic shared by every crate.

Addresses, sizes and extent ids are natural numbers.  The machine types matter
only where the source relies on wrapping, and the models of those counters say
so at their definition.
-/

inductive KmsFault where
  | keyNotFound
  | keyDisabled
  | unavailable
  | accessDenied
  | invalidCiphertext
  | backend
deriving Repr, DecidableEq

/-- `fs3_core::Error`.  The operating-system payload of an i/o error is dropped. -/
inductive Error where
  | io
  | invalidLayout (message : String)
  | corrupt (message : String)
  | invalidArgument (message : String)
  | noSpace
  | alreadyInitialized
  | notInitialized
  | notFound (message : String)
  | unsupported (message : String)
  | metaError (message : String)
  | txnConflict (message : String)
  | objectChanged (message : String)
  | invalidPart (message : String)
  | invalidObjectState (message : String)
  | invalidPartOrder (message : String)
  | partTooSmall (message : String)
  | noSuchUpload (message : String)
  | quotaExceeded (message : String)
  | deleteMarker (message : String)
  | preconditionFailed (message : String)
  | kms (fault : KmsFault) (detail : String)
  | badDigest (message : String)
  | invalidRequest (message : String)
  | accessDenied (message : String)
  | replDataPending (message : String)
deriving Repr, DecidableEq

def sectorSize : Nat := 4096

def reservedRegionEnd : Nat := 1024 * 1024

def extentHeaderSize : Nat := sectorSize

def maxExtents : Nat := 16 * 1024 * 1024

def segmentCrcGrid : Nat := 64 * 1024

def maxObjectSize : Nat := 5 * 1024 * 1024 * 1024 * 1024

/-- `u64::div_ceil`. -/
def divCeil (value divisor : Nat) : Nat :=
  (value + divisor - 1) / divisor

/-- The source masks with `!(align - 1)`; every call passes a power of two, where
clearing the low bits is subtracting the remainder. -/
def alignUp (value align : Nat) : Nat :=
  (value + align - 1) - (value + align - 1) % align

variable {value align : Nat}

theorem le_alignUp (positive : 0 < align) : value ≤ alignUp value align := by
  have remainder := Nat.mod_lt (value + align - 1) positive
  unfold alignUp
  omega

theorem alignUp_lt (positive : 0 < align) : alignUp value align < value + align := by
  unfold alignUp
  omega

theorem dvd_alignUp (value align : Nat) : align ∣ alignUp value align :=
  Nat.dvd_sub_mod _

theorem alignUp_of_dvd (aligned : align ∣ value) : alignUp value align = value := by
  obtain ⟨count, rfl⟩ := aligned
  rcases Nat.eq_zero_or_pos align with rfl | positive
  · simp [alignUp]
  · have shifted : align * count + align - 1 = align - 1 + align * count := by omega
    rw [alignUp, shifted, Nat.add_mul_mod_self_left,
      Nat.mod_eq_of_lt (by omega : align - 1 < align)]
    omega

theorem alignUp_add {left : Nat} (right : Nat) (aligned : align ∣ left) :
    alignUp (left + right) align = left + alignUp right align := by
  obtain ⟨count, rfl⟩ := aligned
  rcases Nat.eq_zero_or_pos align with rfl | positive
  · simp [alignUp]
  · have shifted : align * count + right + align - 1 = right + align - 1 + align * count := by omega
    have small := Nat.mod_le (right + align - 1) align
    rw [alignUp, alignUp, shifted, Nat.add_mul_mod_self_left]
    omega

theorem alignUp_le {bound : Nat} (positive : 0 < align) (aligned : align ∣ bound)
    (below : value ≤ bound) : alignUp value align ≤ bound := by
  have near : alignUp value align < value + align := alignUp_lt positive
  obtain ⟨rounded, eq⟩ := dvd_alignUp value align
  obtain ⟨count, rfl⟩ := aligned
  rw [eq] at near ⊢
  apply Nat.mul_le_mul_left
  have less : align * rounded < align * (count + 1) := by
    rw [Nat.mul_succ]
    omega
  exact Nat.le_of_lt_succ (Nat.lt_of_mul_lt_mul_left less)

end FastS3.Core
