import Mathlib.Order.Basic

namespace FastS3.Data

/-! Two slots that take turns: a value is written over the older slot with the next
generation, and the newest readable slot is the current value. A slot that cannot
be read is `none`. -/

variable {α : Type}

/-- Slot 0 is `false`, slot 1 is `true`. -/
def DoubleBuffer (α : Type) : Type :=
  Bool → Option α

namespace DoubleBuffer

variable (gen : α → Nat)

def latest (slots : DoubleBuffer α) : Option α :=
  match slots false, slots true with
  | none, none => none
  | some a, none => some a
  | none, some b => some b
  | some a, some b => if gen b ≤ gen a then some a else some b

def target (slots : DoubleBuffer α) : Bool :=
  match slots false, slots true with
  | none, _ => false
  | some _, none => true
  | some a, some b => if gen a ≤ gen b then false else true

def maxGen (slots : DoubleBuffer α) : Nat :=
  match slots false, slots true with
  | some a, some b => max (gen a) (gen b)
  | some a, none => gen a
  | none, some b => gen b
  | none, none => 0

def put (slots : DoubleBuffer α) (slot : Bool) (value : Option α) : DoubleBuffer α :=
  fun other => if other = slot then value else slots other

/-- One slot holds the value, and the other holds nothing newer and no rival of the
same generation. -/
def Newest (value : α) (slots : DoubleBuffer α) : Prop :=
  ∃ slot, slots slot = some value ∧
    ∀ other, slots (!slot) = some other → gen other < gen value ∨ other = value

variable {gen} {value : α} {slots : DoubleBuffer α}

theorem Newest.latest (newest : Newest gen value slots) : slots.latest gen = some value := by
  obtain ⟨slot, here, rest⟩ := newest
  cases slot with
  | false =>
    unfold DoubleBuffer.latest
    rw [here]
    cases there : slots true with
    | none => rfl
    | some other =>
      rcases rest other there with older | rfl
      · simp only [if_pos (Nat.le_of_lt older)]
      · simp
  | true =>
    unfold DoubleBuffer.latest
    rw [here]
    cases there : slots false with
    | none => rfl
    | some other =>
      rcases rest other there with older | rfl
      · simp only [if_neg (Nat.not_le.mpr older)]
      · simp

theorem Newest.maxGen (newest : Newest gen value slots) : slots.maxGen gen = gen value := by
  obtain ⟨slot, here, rest⟩ := newest
  cases slot with
  | false =>
    unfold DoubleBuffer.maxGen
    rw [here]
    cases there : slots true with
    | none => rfl
    | some other =>
      rcases rest other there with older | rfl
      · exact Nat.max_eq_left (Nat.le_of_lt older)
      · exact Nat.max_self _
  | true =>
    unfold DoubleBuffer.maxGen
    rw [here]
    cases there : slots false with
    | none => rfl
    | some other =>
      rcases rest other there with older | rfl
      · exact Nat.max_eq_right (Nat.le_of_lt older)
      · exact Nat.max_self _

theorem Newest.survives (newest : Newest gen value slots) :
    slots (!slots.target gen) = some value := by
  obtain ⟨slot, here, rest⟩ := newest
  cases slot with
  | false =>
    unfold target
    cases there : slots true with
    | none => simp [here]
    | some other =>
      rcases rest other there with older | rfl
      · simp [here, Nat.not_le.mpr older]
      · simp [here, there]
  | true =>
    unfold target
    cases there : slots false with
    | none => simp [here]
    | some other =>
      rcases rest other there with older | rfl
      · simp [here, Nat.le_of_lt older]
      · simp [here]

theorem Newest.torn (newest : Newest gen value slots) :
    Newest gen value (slots.put (slots.target gen) none) := by
  refine ⟨!slots.target gen, ?_, ?_⟩
  · rw [put, if_neg (by simp)]
    exact newest.survives
  · intro other found
    simp [put] at found

theorem Newest.written {next : α} (newest : Newest gen value slots) (newer : gen value < gen next) :
    Newest gen next (slots.put (slots.target gen) (some next)) := by
  refine ⟨slots.target gen, by simp [put], ?_⟩
  intro other found
  rw [put, if_neg (by simp), newest.survives] at found
  cases found
  exact .inl newer

theorem mem_of_latest (current : slots.latest gen = some value) : ∃ slot, slots slot = some value := by
  unfold DoubleBuffer.latest at current
  split at current
  · cases current
  · next first _ => exact ⟨false, by rw [first, current]⟩
  · next _ second => exact ⟨true, by rw [second, current]⟩
  · next first second =>
      split at current
      · exact ⟨false, by rw [first, current]⟩
      · exact ⟨true, by rw [second, current]⟩

theorem newest_of_latest (current : slots.latest gen = some value)
    (distinct : ∀ a b, slots false = some a → slots true = some b → gen a = gen b → a = b) :
    Newest gen value slots := by
  unfold DoubleBuffer.latest at current
  cases first : slots false with
  | none =>
    cases second : slots true with
    | none => simp [first, second] at current
    | some b =>
      simp only [first, second, Option.some.injEq] at current
      exact ⟨true, by rw [second, current], by simp [first]⟩
  | some a =>
    cases second : slots true with
    | none =>
      simp only [first, second, Option.some.injEq] at current
      exact ⟨false, by rw [first, current], by simp [second]⟩
    | some b =>
      have same := distinct a b first second
      simp only [first, second] at current
      split at current
      · next le =>
          cases current
          refine ⟨false, first, ?_⟩
          intro other found
          rw [Bool.not_false, second] at found
          cases found
          rcases Nat.lt_or_eq_of_le le with older | tied
          · exact .inl older
          · exact .inr (same tied.symm).symm
      · next lt =>
          cases current
          refine ⟨true, second, ?_⟩
          intro other found
          rw [Bool.not_true, first] at found
          cases found
          exact .inl (Nat.not_le.mp lt)

end DoubleBuffer

end FastS3.Data
