import Mathlib.Data.List.TakeWhile
import Mathlib.Tactic.Conv

namespace FastS3.Data

/-! Sets of numbers `1 .. top` as ascending lists of closed intervals, with a gap of at
least one number between two of them. -/

/-- `(first, last)`, both included. -/
abbrev Interval := Nat × Nat

/-- Where a slice that is partitioned by `holds` changes. -/
def partitionPoint {α : Type} (holds : α → Bool) (items : List α) : Nat :=
  (items.takeWhile holds).length

theorem split_partitionPoint {α : Type} (holds : α → Bool) {items : List α}
    (partitioned : items.Pairwise fun a b => holds b = true → holds a = true) :
    ∃ before behind, items = before ++ behind ∧ partitionPoint holds items = before.length ∧
      (∀ a ∈ before, holds a = true) ∧ ∀ b ∈ behind, holds b = false := by
  refine ⟨items.takeWhile holds, items.dropWhile holds, List.takeWhile_append_dropWhile.symm, rfl,
    fun a member => List.mem_takeWhile_imp member, ?_⟩
  induction items with
  | nil => simp
  | cons head items ih =>
    obtain ⟨closed, rest⟩ := List.pairwise_cons.mp partitioned
    cases first : holds head with
    | true =>
      rw [List.dropWhile_cons_of_pos first]
      exact ih rest
    | false =>
      rw [List.dropWhile_cons_of_neg (by simp [first])]
      intro b member
      rcases List.mem_cons.mp member with rfl | later
      · exact first
      · cases found : holds b with
        | true =>
          have contra := closed b later found
          rw [first] at contra
          cases contra
        | false => rfl

namespace Intervals

/-- `saturating_add(1)` of a type whose greatest value is `top`. -/
def saturatingSucc (top n : Nat) : Nat :=
  min (n + 1) top

/-- Takes in every interval of `rest` that overlaps or touches `first .. last`. -/
def absorb (top : Nat) : Nat → Nat → List Interval → List Interval
  | first, last, [] => [(first, last)]
  | first, last, iv :: rest =>
    if iv.1 ≤ saturatingSucc top last then absorb top (min first iv.1) (max last iv.2) rest
    else (first, last) :: iv :: rest

def insertRange (top first last : Nat) (v : List Interval) : List Interval :=
  let idx := partitionPoint (fun iv => decide (saturatingSucc top iv.2 < first)) v
  v.take idx ++ absorb top first last (v.drop idx)

def contains (v : List Interval) (x : Nat) : Bool :=
  match v[partitionPoint (fun iv => decide (iv.2 < x)) v]? with
  | some iv => decide (iv.1 ≤ x)
  | none => false

/-- Whether one interval of `v` has all of `first .. last`. -/
def covered (v : List Interval) (iv : Interval) : Bool :=
  match v[partitionPoint (fun other => decide (other.2 < iv.1)) v]? with
  | some other => decide (other.1 ≤ iv.1) && decide (iv.2 ≤ other.2)
  | none => false

structure Canonical (top : Nat) (v : List Interval) : Prop where
  bounds : ∀ iv ∈ v, 1 ≤ iv.1 ∧ iv.1 ≤ iv.2 ∧ iv.2 ≤ top
  apart : v.Pairwise fun a b => a.2 + 1 < b.1

def Covers (v : List Interval) (x : Nat) : Prop :=
  ∃ iv ∈ v, iv.1 ≤ x ∧ x ≤ iv.2

variable {top first last x : Nat} {v : List Interval} {iv : Interval}

theorem canonical_nil : Canonical top [] :=
  ⟨by simp, List.Pairwise.nil⟩

theorem canonical_cons :
    Canonical top (iv :: v) ↔
      (1 ≤ iv.1 ∧ iv.1 ≤ iv.2 ∧ iv.2 ≤ top) ∧ (∀ later ∈ v, iv.2 + 1 < later.1) ∧ Canonical top v := by
  constructor
  · intro canonical
    obtain ⟨below, apart⟩ := List.pairwise_cons.mp canonical.apart
    exact ⟨canonical.bounds iv List.mem_cons_self, below,
      fun other member => canonical.bounds other (List.mem_cons_of_mem _ member), apart⟩
  · rintro ⟨bounds, below, rest⟩
    refine ⟨?_, List.pairwise_cons.mpr ⟨below, rest.apart⟩⟩
    intro other member
    rcases List.mem_cons.mp member with rfl | later
    · exact bounds
    · exact rest.bounds other later

theorem canonical_append {left right : List Interval} :
    Canonical top (left ++ right) ↔
      Canonical top left ∧ Canonical top right ∧ ∀ a ∈ left, ∀ b ∈ right, a.2 + 1 < b.1 := by
  constructor
  · intro canonical
    obtain ⟨apartLeft, apartRight, between⟩ := List.pairwise_append.mp canonical.apart
    exact ⟨⟨fun iv member => canonical.bounds iv (List.mem_append_left _ member), apartLeft⟩,
      ⟨fun iv member => canonical.bounds iv (List.mem_append_right _ member), apartRight⟩, between⟩
  · rintro ⟨canonicalLeft, canonicalRight, between⟩
    refine ⟨?_, List.pairwise_append.mpr ⟨canonicalLeft.apart, canonicalRight.apart, between⟩⟩
    intro iv member
    rcases List.mem_append.mp member with inLeft | inRight
    · exact canonicalLeft.bounds iv inLeft
    · exact canonicalRight.bounds iv inRight

@[simp] theorem covers_nil : ¬Covers [] x := by
  simp [Covers]

theorem covers_cons : Covers (iv :: v) x ↔ (iv.1 ≤ x ∧ x ≤ iv.2) ∨ Covers v x := by
  simp [Covers]

theorem covers_append {left right : List Interval} :
    Covers (left ++ right) x ↔ Covers left x ∨ Covers right x := by
  simp [Covers, or_and_right, exists_or]

theorem absorb_covers (canonical : Canonical top v) (order : first ≤ last)
    (reach : ∀ iv ∈ v, first ≤ iv.2 + 1) :
    Covers (absorb top first last v) x ↔ (first ≤ x ∧ x ≤ last) ∨ Covers v x := by
  induction v generalizing first last with
  | nil => simp [absorb, Covers]
  | cons iv v ih =>
    obtain ⟨bounds, below, rest⟩ := canonical_cons.mp canonical
    have reached := reach iv List.mem_cons_self
    unfold absorb
    split
    · next touches =>
        unfold saturatingSucc at touches
        rw [ih rest (by omega), covers_cons, ← or_assoc]
        · have joined : (min first iv.1 ≤ x ∧ x ≤ max last iv.2) ↔
              (first ≤ x ∧ x ≤ last) ∨ (iv.1 ≤ x ∧ x ≤ iv.2) := by omega
          rw [joined]
        · intro other member
          have later := reach other (List.mem_cons_of_mem _ member)
          omega
    · rw [covers_cons]

theorem absorb_lower {low : Nat} (below : low < first) (beneath : ∀ iv ∈ v, low < iv.1) :
    ∀ iv ∈ absorb top first last v, low < iv.1 := by
  induction v generalizing first last with
  | nil =>
    intro iv member
    rw [absorb, List.mem_singleton] at member
    rw [member]
    exact below
  | cons head v ih =>
    have lowest := beneath head List.mem_cons_self
    unfold absorb
    split
    · apply ih
      · omega
      · intro iv member
        exact beneath iv (List.mem_cons_of_mem _ member)
    · intro iv member
      rcases List.mem_cons.mp member with rfl | later
      · exact below
      · exact beneath iv later

theorem absorb_canonical (canonical : Canonical top v) (positive : 1 ≤ first) (order : first ≤ last)
    (bounded : last ≤ top) : Canonical top (absorb top first last v) := by
  induction v generalizing first last with
  | nil => exact canonical_cons.mpr ⟨⟨positive, order, bounded⟩, by simp, canonical_nil⟩
  | cons iv v ih =>
    obtain ⟨bounds, below, rest⟩ := canonical_cons.mp canonical
    unfold absorb
    split
    · exact ih rest (by omega) (by omega) (by omega)
    · next past =>
        unfold saturatingSucc at past
        refine canonical_cons.mpr ⟨⟨positive, order, bounded⟩, ?_, canonical⟩
        intro later member
        rcases List.mem_cons.mp member with rfl | behind
        · show last + 1 < later.1
          omega
        · have gap := below later behind
          show last + 1 < later.1
          omega

theorem Canonical.ends_ascend (canonical : Canonical top v) : v.Pairwise fun a b => a.2 < b.2 := by
  apply canonical.apart.imp_of_mem
  intro a b _ member gap
  have order := (canonical.bounds b member).2.1
  omega

theorem split_at_insert (canonical : Canonical top v) (bounded : first ≤ top) (last : Nat) :
    ∃ before behind, v = before ++ behind ∧
      insertRange top first last v = before ++ absorb top first last behind ∧
      (∀ iv ∈ before, iv.2 + 1 < first) ∧ ∀ iv ∈ behind, first ≤ iv.2 + 1 := by
  have partitioned : v.Pairwise fun a b => decide (saturatingSucc top b.2 < first) = true →
      decide (saturatingSucc top a.2 < first) = true := by
    apply canonical.ends_ascend.imp
    intro a b ascend ends
    have ended := of_decide_eq_true ends
    apply decide_eq_true
    unfold saturatingSucc at *
    omega
  obtain ⟨before, behind, rfl, point, ends, reach⟩ :=
    split_partitionPoint (fun iv : Interval => decide (saturatingSucc top iv.2 < first)) partitioned
  refine ⟨before, behind, rfl, ?_, ?_, ?_⟩
  · simp only [insertRange, point, List.take_left, List.drop_left]
  · intro iv member
    have ended := of_decide_eq_true (ends iv member)
    unfold saturatingSucc at ended
    omega
  · intro iv member
    have reached := of_decide_eq_false (reach iv member)
    unfold saturatingSucc at reached
    omega

theorem insertRange_covers (canonical : Canonical top v) (order : first ≤ last) (bounded : last ≤ top) :
    Covers (insertRange top first last v) x ↔ Covers v x ∨ (first ≤ x ∧ x ≤ last) := by
  obtain ⟨before, behind, rfl, inserted, _, reach⟩ :=
    split_at_insert canonical (Nat.le_trans order bounded) last
  obtain ⟨_, canonicalBehind, _⟩ := canonical_append.mp canonical
  rw [inserted, covers_append, covers_append, absorb_covers canonicalBehind order reach,
    or_comm (a := first ≤ x ∧ x ≤ last), or_assoc]

theorem insertRange_canonical (canonical : Canonical top v) (positive : 1 ≤ first)
    (order : first ≤ last) (bounded : last ≤ top) : Canonical top (insertRange top first last v) := by
  obtain ⟨before, behind, rfl, inserted, ends, _⟩ :=
    split_at_insert canonical (Nat.le_trans order bounded) last
  obtain ⟨canonicalBefore, canonicalBehind, between⟩ := canonical_append.mp canonical
  rw [inserted]
  refine canonical_append.mpr
    ⟨canonicalBefore, absorb_canonical canonicalBehind positive order bounded, ?_⟩
  intro a inBefore
  exact absorb_lower (ends a inBefore) (between a inBefore)

theorem split_at_point (canonical : Canonical top v) (x : Nat) :
    ∃ before behind, v = before ++ behind ∧
      v[partitionPoint (fun iv => decide (iv.2 < x)) v]? = behind.head? ∧
      (∀ iv ∈ before, iv.2 < x) ∧ ∀ iv ∈ behind, x ≤ iv.2 := by
  have partitioned : v.Pairwise fun a b => decide (b.2 < x) = true → decide (a.2 < x) = true := by
    apply canonical.ends_ascend.imp
    intro a b ascend
    simp only [decide_eq_true_eq]
    omega
  obtain ⟨before, behind, rfl, point, ends, reach⟩ :=
    split_partitionPoint (fun iv : Interval => decide (iv.2 < x)) partitioned
  refine ⟨before, behind, rfl, ?_, ?_, ?_⟩
  · rw [point, List.getElem?_append_right (Nat.le_refl _), Nat.sub_self, List.head?_eq_getElem?]
  · intro iv member
    exact of_decide_eq_true (ends iv member)
  · intro iv member
    exact Nat.not_lt.mp (of_decide_eq_false (reach iv member))

theorem contains_iff (canonical : Canonical top v) : contains v x = true ↔ Covers v x := by
  obtain ⟨before, behind, rfl, found, ends, reach⟩ := split_at_point canonical x
  obtain ⟨_, canonicalBehind, _⟩ := canonical_append.mp canonical
  have notBefore : ¬Covers before x := by
    rintro ⟨iv, member, _, high⟩
    have ended := ends iv member
    omega
  rw [contains, found, covers_append]
  cases behind with
  | nil => simp [notBefore]
  | cons head behind =>
    obtain ⟨_, below, _⟩ := canonical_cons.mp canonicalBehind
    have high := reach head List.mem_cons_self
    have notLater : Covers behind x → head.1 ≤ x := by
      rintro ⟨iv, member, low, _⟩
      have gap := below iv member
      have order := (canonicalBehind.bounds head List.mem_cons_self).2.1
      omega
    simp only [List.head?_cons, decide_eq_true_eq, covers_cons]
    constructor
    · intro low
      exact .inr (.inl ⟨low, high⟩)
    · rintro (inBefore | ⟨low, _⟩ | later)
      · exact absurd inBefore notBefore
      · exact low
      · exact notLater later

theorem covered_iff (canonical : Canonical top v) (order : iv.1 ≤ iv.2) :
    covered v iv = true ↔ ∀ x, iv.1 ≤ x → x ≤ iv.2 → Covers v x := by
  obtain ⟨before, behind, rfl, found, ends, reach⟩ := split_at_point canonical iv.1
  obtain ⟨_, canonicalBehind, _⟩ := canonical_append.mp canonical
  have notBefore : ∀ x, iv.1 ≤ x → ¬Covers before x := by
    rintro x low ⟨other, member, _, high⟩
    have ended := ends other member
    omega
  rw [covered, found]
  cases behind with
  | nil =>
    simp only [List.head?_nil, Bool.false_eq_true, false_iff, List.append_nil]
    intro all
    exact notBefore iv.1 (Nat.le_refl _) (all iv.1 (Nat.le_refl _) order)
  | cons head behind =>
    obtain ⟨bounds, below, _⟩ := canonical_cons.mp canonicalBehind
    have high := reach head List.mem_cons_self
    have inHead : ∀ x, iv.1 ≤ x → x ≤ head.2 + 1 → Covers (before ++ head :: behind) x →
        head.1 ≤ x ∧ x ≤ head.2 := by
      intro x low near covers
      rcases covers_append.mp covers with inBefore | inBehind
      · exact absurd inBefore (notBefore x low)
      · rcases covers_cons.mp inBehind with inside | ⟨other, member, start, _⟩
        · exact inside
        · have gap := below other member
          omega
    simp only [List.head?_cons, Bool.and_eq_true, decide_eq_true_eq]
    constructor
    · rintro ⟨low, whole⟩ x above under
      rw [covers_append, covers_cons]
      exact .inr (.inl ⟨by omega, by omega⟩)
    · intro all
      have start := inHead iv.1 (Nat.le_refl _) (by omega) (all iv.1 (Nat.le_refl _) order)
      refine ⟨start.1, ?_⟩
      by_contra past
      -- the number behind the interval would have to be in the gap
      have gap := inHead (head.2 + 1) (by omega) (Nat.le_refl _) (all _ (by omega) (by omega))
      omega

theorem head_determined {u : List Interval} {a b : Interval} (canonicalU : Canonical top (a :: u))
    (canonicalV : Canonical top (b :: v)) (same : ∀ x, Covers (a :: u) x → Covers (b :: v) x) :
    b.1 ≤ a.1 ∧ (a.1 = b.1 → a.2 ≤ b.2) := by
  obtain ⟨boundsA, _, _⟩ := canonical_cons.mp canonicalU
  obtain ⟨boundsB, belowB, _⟩ := canonical_cons.mp canonicalV
  have within : ∀ x, a.1 ≤ x → x ≤ a.2 → x ≤ b.2 + 1 → b.1 ≤ x ∧ x ≤ b.2 := by
    intro x low high near
    rcases covers_cons.mp (same x (covers_cons.mpr (.inl ⟨low, high⟩))) with inside | later
    · exact inside
    · obtain ⟨other, member, start, _⟩ := later
      have gap := belowB other member
      omega
  constructor
  · by_contra above
    have start := within a.1 (Nat.le_refl _) boundsA.2.1 (by omega)
    omega
  · intro aligned
    by_contra past
    have gap := within (b.2 + 1) (by omega) (by omega) (Nat.le_refl _)
    omega

theorem canonical_ext {u : List Interval} (canonicalU : Canonical top u) (canonicalV : Canonical top v)
    (same : ∀ x, Covers u x ↔ Covers v x) : u = v := by
  induction u generalizing v with
  | nil =>
    cases v with
    | nil => rfl
    | cons iv v =>
      have bounds := canonicalV.bounds iv List.mem_cons_self
      have covers := (same iv.1).mpr (covers_cons.mpr (.inl ⟨Nat.le_refl _, bounds.2.1⟩))
      exact absurd covers covers_nil
  | cons a u ih =>
    cases v with
    | nil =>
      have bounds := canonicalU.bounds a List.mem_cons_self
      have covers := (same a.1).mp (covers_cons.mpr (.inl ⟨Nat.le_refl _, bounds.2.1⟩))
      exact absurd covers covers_nil
    | cons b v =>
      obtain ⟨boundsA, belowA, restU⟩ := canonical_cons.mp canonicalU
      obtain ⟨boundsB, belowB, restV⟩ := canonical_cons.mp canonicalV
      have forward := head_determined canonicalU canonicalV fun x => (same x).mp
      have backward := head_determined canonicalV canonicalU fun x => (same x).mpr
      have starts : a.1 = b.1 := by omega
      have ends : a.2 = b.2 := Nat.le_antisymm (forward.2 starts) (backward.2 starts.symm)
      have heads : a = b := Prod.ext starts ends
      subst heads
      have tails : u = v := by
        apply ih restU restV
        intro x
        have outside : ∀ rest : List Interval, (∀ later ∈ rest, a.2 + 1 < later.1) →
            Covers rest x → ¬(a.1 ≤ x ∧ x ≤ a.2) := by
          rintro rest below ⟨other, member, low, _⟩
          have gap := below other member
          omega
        have whole := same x
        rw [covers_cons, covers_cons] at whole
        constructor
        · intro inU
          exact (whole.mp (.inr inU)).resolve_left (outside u belowA inU)
        · intro inV
          exact (whole.mpr (.inr inV)).resolve_left (outside v belowB inV)
      rw [tails]

end Intervals

end FastS3.Data
