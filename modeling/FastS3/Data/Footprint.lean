import Mathlib.Logic.Function.Basic

namespace FastS3.Data

/-! Transactions over a table of rows, and the rows they touch.

A failed transaction leaves no trace, so only what a successful one did is
described.
-/

variable {κ : Type} {ν : κ → Type} {ε α β : Type}

abbrev Rows (ν : κ → Type) := (key : κ) → ν key

abbrev Tx (ν : κ → Type) (ε α : Type) := StateT (Rows ν) (Except ε) α

def AgreeOn (scope : κ → Prop) (left right : Rows ν) : Prop :=
  ∀ key, scope key → left key = right key

theorem AgreeOn.of_subset {small large : κ → Prop} {left right : Rows ν}
    (agree : AgreeOn large left right) (subset : ∀ key, small key → large key) :
    AgreeOn small left right := by
  intro key inside
  exact agree key (subset key inside)

namespace Tx

def read (key : κ) : Tx ν ε (ν key) :=
  fun rows => .ok (rows key, rows)

def write [DecidableEq κ] (key : κ) (row : ν key) : Tx ν ε Unit :=
  fun rows => .ok ((), Function.update rows key row)

variable {before : Rows ν}

theorem bind_eq_ok {first : Tx ν ε α} {next : α → Tx ν ε β} {result : β × Rows ν} :
    (first >>= next) before = .ok result ↔
      ∃ value middle, first before = .ok (value, middle) ∧ next value middle = .ok result := by
  show (first before >>= fun outcome => next outcome.1 outcome.2) = .ok result ↔ _
  cases run : first before with
  | error e =>
    constructor
    · intro impossible
      cases impossible
    · rintro ⟨value, middle, impossible, _⟩
      cases impossible
  | ok outcome =>
    constructor
    · intro rest
      exact ⟨outcome.1, outcome.2, rfl, rest⟩
    · rintro ⟨value, middle, same, rest⟩
      cases same
      exact rest

theorem pure_eq_ok {value : α} {result : α × Rows ν} :
    (pure value : Tx ν ε α) before = .ok result ↔ result = (value, before) := by
  constructor
  · intro run
    cases run
    rfl
  · intro same
    rw [same]
    rfl

theorem throw_ne_ok {e : ε} {result : α × Rows ν} : (throw e : Tx ν ε α) before ≠ .ok result := by
  intro impossible
  cases impossible

theorem read_eq_ok {key : κ} {result : ν key × Rows ν} :
    (read key : Tx ν ε (ν key)) before = .ok result ↔ result = (before key, before) := by
  constructor
  · intro run
    cases run
    rfl
  · intro same
    rw [same]
    rfl

theorem write_eq_ok [DecidableEq κ] {key : κ} {row : ν key} {result : Unit × Rows ν} :
    (write key row : Tx ν ε Unit) before = .ok result ↔
      result = ((), Function.update before key row) := by
  constructor
  · intro run
    cases run
    rfl
  · intro same
    rw [same]
    rfl

theorem read_bind_eq_ok {key : κ} {next : ν key → Tx ν ε β} {result : β × Rows ν} :
    (read key >>= next) before = .ok result ↔ next (before key) before = .ok result :=
  Iff.rfl

theorem write_bind_eq_ok [DecidableEq κ] {key : κ} {row : ν key} {next : Unit → Tx ν ε β}
    {result : β × Rows ν} :
    (write key row >>= next) before = .ok result ↔
      next () (Function.update before key row) = .ok result :=
  Iff.rfl

theorem required_eq_ok {first : Tx ν ε (Option α)} {e : ε} {after : Rows ν} {value : α} :
    (first >>= fun found =>
        match found with
        | none => throw e
        | some value => pure value) before = .ok (value, after) ↔
      first before = .ok (some value, after) := by
  constructor
  · intro run
    obtain ⟨found, middle, ran, rest⟩ := bind_eq_ok.mp run
    cases found with
    | none => exact absurd rest throw_ne_ok
    | some value =>
      cases pure_eq_ok.mp rest
      exact ran
  · intro ran
    exact bind_eq_ok.mpr ⟨some value, after, ran, rfl⟩

theorem forM_keeps {items : List β} {body : β → Tx ν ε PUnit} {P : Rows ν → Prop}
    (each : ∀ item ∈ items, ∀ {before after : Rows ν},
      body item before = .ok ((), after) → P before → P after) {after : Rows ν}
    (run : items.forM body before = .ok ((), after)) (holds : P before) : P after := by
  induction items generalizing before with
  | nil =>
    cases pure_eq_ok.mp run
    exact holds
  | cons item rest ih =>
    obtain ⟨_, middle, ran, remaining⟩ := bind_eq_ok.mp run
    apply ih (fun other member => each other (List.mem_cons_of_mem _ member)) remaining
    exact each item List.mem_cons_self ran holds

theorem forM_succeeds {items : List β} {body : β → Tx ν ε PUnit}
    (each : ∀ item before, ∃ after, body item before = .ok ((), after)) (before : Rows ν) :
    ∃ after, items.forM body before = .ok ((), after) := by
  induction items generalizing before with
  | nil => exact ⟨before, rfl⟩
  | cons item rest ih =>
    obtain ⟨middle, ran⟩ := each item before
    obtain ⟨after, finished⟩ := ih middle
    exact ⟨after, bind_eq_ok.mpr ⟨(), middle, ran, finished⟩⟩

end Tx

/-- The transaction reads and writes no row outside the set: the other rows stay,
and its outcome depends on the rows of the set only. -/
structure Within (scope : κ → Prop) (tx : Tx ν ε α) : Prop where
  frame : ∀ {before after : Rows ν} {value : α}, tx before = .ok (value, after) →
    ∀ key, ¬ scope key → after key = before key
  transfer : ∀ {left right after : Rows ν} {value : α}, AgreeOn scope left right →
    tx left = .ok (value, after) →
    ∃ other, tx right = .ok (value, other) ∧ AgreeOn scope after other

namespace Within

variable {scope : κ → Prop}

protected theorem pure (value : α) : Within scope (pure value : Tx ν ε α) where
  frame := by
    intro before after result run key _
    cases Tx.pure_eq_ok.mp run
    rfl
  transfer := by
    intro left right after result agree run
    cases Tx.pure_eq_ok.mp run
    exact ⟨right, rfl, agree⟩

protected theorem throw (e : ε) : Within scope (throw e : Tx ν ε α) where
  frame := fun run => absurd run Tx.throw_ne_ok
  transfer := fun _ run => absurd run Tx.throw_ne_ok

protected theorem read {key : κ} (inside : scope key) :
    Within scope (Tx.read key : Tx ν ε (ν key)) where
  frame := by
    intro before after result run other _
    cases Tx.read_eq_ok.mp run
    rfl
  transfer := by
    intro left right after result agree run
    cases Tx.read_eq_ok.mp run
    exact ⟨right, by rw [agree key inside]; rfl, agree⟩

protected theorem write [DecidableEq κ] {key : κ} (row : ν key) (inside : scope key) :
    Within scope (Tx.write key row : Tx ν ε Unit) where
  frame := by
    intro before after result run other outside
    cases Tx.write_eq_ok.mp run
    apply Function.update_of_ne
    intro same
    exact outside (same ▸ inside)
  transfer := by
    intro left right after result agree run
    cases Tx.write_eq_ok.mp run
    refine ⟨Function.update right key row, rfl, ?_⟩
    intro other within
    by_cases same : other = key
    · subst same
      rw [Function.update_self, Function.update_self]
    · rw [Function.update_of_ne same, Function.update_of_ne same]
      exact agree other within

protected theorem bind {first : Tx ν ε α} {next : α → Tx ν ε β} (head : Within scope first)
    (tail : ∀ value, Within scope (next value)) : Within scope (first >>= next) where
  frame := by
    intro before after result run key outside
    obtain ⟨value, middle, ran, rest⟩ := Tx.bind_eq_ok.mp run
    exact ((tail value).frame rest key outside).trans (head.frame ran key outside)
  transfer := by
    intro left right after result agree run
    obtain ⟨value, middle, ran, rest⟩ := Tx.bind_eq_ok.mp run
    obtain ⟨other, mirrored, agreed⟩ := head.transfer agree ran
    obtain ⟨last, finished, settled⟩ := (tail value).transfer agreed rest
    exact ⟨last, Tx.bind_eq_ok.mpr ⟨value, other, mirrored, finished⟩, settled⟩

protected theorem forM {items : List β} {body : β → Tx ν ε PUnit}
    (each : ∀ item, item ∈ items → Within scope (body item)) : Within scope (items.forM body) := by
  induction items with
  | nil => exact Within.pure _
  | cons item rest ih =>
    show Within scope (body item >>= fun _ => rest.forM body)
    apply Within.bind (each item List.mem_cons_self)
    intro _
    exact ih fun other member => each other (List.mem_cons_of_mem _ member)

theorem of_subset {large : κ → Prop} {tx : Tx ν ε α} (within : Within scope tx)
    (subset : ∀ key, scope key → large key) : Within large tx where
  frame := by
    intro before after result run key outside
    exact within.frame run key fun inside => outside (subset key inside)
  transfer := by
    intro left right after result agree run
    obtain ⟨other, mirrored, agreed⟩ := within.transfer (agree.of_subset subset) run
    refine ⟨other, mirrored, ?_⟩
    intro key inLarge
    by_cases inside : scope key
    · exact agreed key inside
    · rw [within.frame run key inside, within.frame mirrored key inside]
      exact agree key inLarge

end Within

end FastS3.Data
