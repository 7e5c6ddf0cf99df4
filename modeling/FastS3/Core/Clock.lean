import Mathlib.Order.Lattice
import Mathlib.Algebra.Group.Int.Defs

namespace FastS3.Core

/-! The trusted clock: a wall reading and a monotonic reading that were taken together. -/

/-- The numbers of the type `i64`. -/
abbrev I64 := { value : Int // -2 ^ 63 ≤ value ∧ value < 2 ^ 63 }

instance I64.linearOrder : LinearOrder I64 :=
  @Subtype.instLinearOrder Int Int.instLinearOrder _

instance I64.decidableLE (left right : I64) : Decidable (left ≤ right) :=
  Int.decLe left.1 right.1

def I64.saturate (value : Int) : I64 :=
  ⟨max (-2 ^ 63) (min value (2 ^ 63 - 1)), by omega, by omega⟩

structure TrustedClockState where
  lastWall : I64
  lastMonoNs : I64
deriving DecidableEq

namespace TrustedClockState

def new (wallNow monoNowNs : I64) : TrustedClockState :=
  ⟨wallNow, monoNowNs⟩

variable (clock : TrustedClockState)

def trustedNow (monoNowNs : I64) : I64 :=
  let delta := (I64.saturate (monoNowNs.1 - clock.lastMonoNs.1)).1.tdiv 1000000000
  I64.saturate (clock.lastWall.1 + delta)

def lockNow (wallNow monoNowNs : I64) : I64 :=
  max wallNow (clock.trustedNow monoNowNs)

def refresh (wallNow monoNowNs : I64) : TrustedClockState :=
  ⟨max wallNow (clock.trustedNow monoNowNs), monoNowNs⟩

def rebaselineOnBoot (persisted : Option TrustedClockState) (wallNow monoNowNs : I64) :
    TrustedClockState :=
  match persisted with
  | none => new wallNow monoNowNs
  | some old => ⟨max wallNow old.lastWall, monoNowNs⟩

end TrustedClockState

def retentionExpired (untilTime wallNow trustedNow : I64) : Bool :=
  decide (untilTime ≤ max wallNow trustedNow)

section Trusted

variable {clock : TrustedClockState} {mono later : I64}

/-- While the monotonic clock runs on, the trusted time is the high mark and the whole seconds since. -/
theorem trustedNow_forward (clock : TrustedClockState) (forward : clock.lastMonoNs ≤ mono) :
    clock.lastWall ≤ clock.trustedNow mono ∧
      (clock.trustedNow mono).1 * 1000000000 ≤
        clock.lastWall.1 * 1000000000 + (mono.1 - clock.lastMonoNs.1) := by
  have order : clock.lastMonoNs.1 ≤ mono.1 := forward
  have wall := clock.lastWall.2
  constructor
  · change clock.lastWall.1 ≤ (clock.trustedNow mono).1
    simp only [TrustedClockState.trustedNow, I64.saturate]
    rw [Int.tdiv_eq_ediv_of_nonneg (by omega)]
    omega
  · simp only [TrustedClockState.trustedNow, I64.saturate]
    rw [Int.tdiv_eq_ediv_of_nonneg (by omega)]
    omega

theorem trustedNow_mono (order : mono ≤ later) : clock.trustedNow mono ≤ clock.trustedNow later := by
  have forward : mono.1 ≤ later.1 := order
  have readings : (I64.saturate (mono.1 - clock.lastMonoNs.1)).1 ≤
      (I64.saturate (later.1 - clock.lastMonoNs.1)).1 := by
    simp only [I64.saturate]
    omega
  have seconds : (I64.saturate (mono.1 - clock.lastMonoNs.1)).1.tdiv 1000000000 ≤
      (I64.saturate (later.1 - clock.lastMonoNs.1)).1.tdiv 1000000000 :=
    Int.tdiv_le_tdiv (by decide) readings
  change max (-2 ^ 63) (min (clock.lastWall.1 + _) (2 ^ 63 - 1)) ≤
    max (-2 ^ 63) (min (clock.lastWall.1 + _) (2 ^ 63 - 1))
  omega

theorem trustedNow_refresh {wall : I64} (forward : mono ≤ later) :
    max wall (clock.trustedNow mono) ≤ (clock.refresh wall mono).trustedNow later :=
  (trustedNow_forward (clock.refresh wall mono) forward).1

end Trusted

end FastS3.Core
