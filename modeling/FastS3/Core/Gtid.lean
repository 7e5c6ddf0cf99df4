import FastS3.Core.Bytes
import FastS3.Data.BTreeMap
import FastS3.Data.Intervals
import Mathlib.Data.Prod.Lex

namespace FastS3.Core

open Data

/-! Global transaction ids and the sets of them that a node has executed. -/

structure Gtid where
  epoch : Nat
  seq : Nat
deriving Repr, DecidableEq

def Gtid.le (left right : Gtid) : Bool :=
  left.epoch < right.epoch || (left.epoch == right.epoch && left.seq ≤ right.seq)

namespace Gtid

instance : LinearOrder Gtid :=
  LinearOrder.lift' (fun g => toLex (g.epoch, g.seq)) fun left right same => by
    cases left
    cases right
    cases toLex.injective same
    rfl

theorem lt_iff {left right : Gtid} :
    left < right ↔ left.epoch < right.epoch ∨ left.epoch = right.epoch ∧ left.seq < right.seq :=
  Prod.Lex.toLex_lt_toLex

theorem le_iff {left right : Gtid} : left.le right = true ↔ left ≤ right := by
  rw [← not_lt, lt_iff, Gtid.le]
  simp only [Bool.or_eq_true, Bool.and_eq_true, decide_eq_true_eq, beq_iff_eq]
  omega

theorem le_eq_false_iff {left right : Gtid} : left.le right = false ↔ right < left := by
  rw [← not_le, ← le_iff, Bool.not_eq_true]

end Gtid

def u64Max : Nat := 2 ^ 64 - 1

structure GtidSet where
  ranges : BTreeMap Nat (List Interval)

namespace GtidSet

def new : GtidSet :=
  ⟨BTreeMap.empty⟩

/-- `none` is the panic of a failed assertion. -/
def insertRange (set : GtidSet) (epoch start stop : Nat) : Option GtidSet :=
  if start ≥ 1 ∧ start ≤ stop then
    some ⟨set.ranges.alter epoch fun v => Intervals.insertRange u64Max start stop (v.getD [])⟩
  else none

def insert (set : GtidSet) (g : Gtid) : Option GtidSet :=
  set.insertRange g.epoch g.seq g.seq

def contains (set : GtidSet) (g : Gtid) : Bool :=
  match set.ranges.get? g.epoch with
  | some v => Intervals.contains v g.seq
  | none => false

def isSubsetLoop (other : GtidSet) : List (Nat × List Interval) → Bool
  | [] => true
  | (epoch, ivs) :: rest =>
    match other.ranges.get? epoch with
    | none => ivs.isEmpty
    | some oivs => if ivs.all (Intervals.covered oivs) then isSubsetLoop other rest else false

def isSubset (set other : GtidSet) : Bool :=
  isSubsetLoop other set.ranges.entries

/-- The check of one epoch's intervals; `prev` is the end of the interval before. -/
def checkIntervals (epoch : Nat) : Option Nat → List Interval → Except Error Unit
  | _, [] => .ok ()
  | prev, (s, e) :: rest =>
    if s = 0 ∨ s > e then
      .error (.corrupt s!"gtid set epoch {epoch} malformed range [{s},{e}]")
    else if prev.any (fun pe => s ≤ Intervals.saturatingSucc u64Max pe) then
      .error (.corrupt s!"gtid set epoch {epoch} ranges overlap/adjacent at [{s},{e}]")
    else checkIntervals epoch (some e) rest

def checkEpochs : List (Nat × List Interval) → Except Error Unit
  | [] => .ok ()
  | (epoch, ivs) :: rest => do
      checkIntervals epoch none ivs
      checkEpochs rest

/-- The entries of a serialized map, as `postcard` delivers them. -/
abbrev WireRanges := List (UInt64 × List (UInt64 × UInt64))

def collect (wire : WireRanges) : BTreeMap Nat (List Interval) :=
  wire.foldl
    (fun map entry =>
      map.alter entry.1.toNat fun _ => entry.2.map fun iv => (iv.1.toNat, iv.2.toNat))
    BTreeMap.empty

/-- `fromBytes` is `postcard::from_bytes`. -/
def decode (fromBytes : Bytes → Except String WireRanges) (buf : Bytes) : Except Error GtidSet :=
  match fromBytes buf with
  | .error e => .error (.corrupt s!"gtid set: {e}")
  | .ok wire => do
      checkEpochs (collect wire).entries
      return ⟨collect wire⟩

inductive Insertion where
  | insert (g : Gtid)
  | insertRange (epoch start stop : Nat)
deriving Repr, DecidableEq

namespace Insertion

def apply (set : GtidSet) : Insertion → Option GtidSet
  | .insert g => set.insert g
  | .insertRange epoch start stop => set.insertRange epoch start stop

def epoch : Insertion → Nat
  | .insert g => g.epoch
  | .insertRange epoch _ _ => epoch

def start : Insertion → Nat
  | .insert g => g.seq
  | .insertRange _ start _ => start

def stop : Insertion → Nat
  | .insert g => g.seq
  | .insertRange _ _ stop => stop

def Valid (i : Insertion) : Prop :=
  1 ≤ i.start ∧ i.start ≤ i.stop ∧ i.stop ≤ u64Max

def Adds (i : Insertion) (g : Gtid) : Prop :=
  i.epoch = g.epoch ∧ i.start ≤ g.seq ∧ g.seq ≤ i.stop

theorem apply_eq (set : GtidSet) (i : Insertion) :
    i.apply set = set.insertRange i.epoch i.start i.stop := by
  cases i with
  | insert g => rfl
  | insertRange epoch start stop => rfl

end Insertion

def insertAll (set : GtidSet) (insertions : List Insertion) : Option GtidSet :=
  insertions.foldlM Insertion.apply set

def Built (fromBytes : Bytes → Except String WireRanges) (set : GtidSet) : Prop :=
  ∃ first insertions, (first = new ∨ ∃ buf, decode fromBytes buf = .ok first) ∧
    (∀ i ∈ insertions, i.Valid) ∧ insertAll first insertions = some set

def Canonical (set : GtidSet) : Prop :=
  ∀ epoch v, set.ranges.get? epoch = some v → Intervals.Canonical u64Max v

def Holds (set : GtidSet) (g : Gtid) : Prop :=
  ∃ v, set.ranges.get? g.epoch = some v ∧ Intervals.Covers v g.seq

def Hollow (set : GtidSet) : Prop :=
  ∃ epoch later v, epoch < later ∧ set.ranges.get? epoch = some [] ∧
    set.ranges.get? later = some v ∧ v ≠ []

variable {set other : GtidSet} {i : Insertion} {insertions : List Insertion}

theorem contains_iff (canonical : set.Canonical) (g : Gtid) : set.contains g = true ↔ set.Holds g := by
  unfold contains Holds
  cases found : set.ranges.get? g.epoch with
  | none => simp
  | some v =>
    simp only [Option.some.injEq, exists_eq_left']
    exact Intervals.contains_iff (canonical g.epoch v found)

theorem new_canonical : new.Canonical := by
  intro epoch v found
  cases found

variable {ivs : List Interval} {epoch : Nat} {entries : List (Nat × List Interval)}

theorem canonical_of_checkIntervals {prev : Option Nat}
    (accepted : checkIntervals epoch prev ivs = .ok ()) (bounded : ∀ iv ∈ ivs, iv.2 ≤ u64Max) :
    Intervals.Canonical u64Max ivs ∧
      ∀ pe, prev = some pe → pe ≤ u64Max → ∀ iv ∈ ivs, pe + 1 < iv.1 := by
  induction ivs generalizing prev with
  | nil => exact ⟨Intervals.canonical_nil, by simp⟩
  | cons iv rest ih =>
    obtain ⟨s, e⟩ := iv
    simp only [checkIntervals] at accepted
    split at accepted
    · cases accepted
    · next formed =>
        split at accepted
        · cases accepted
        · next behind =>
            have top := bounded (s, e) List.mem_cons_self
            obtain ⟨canonical, below⟩ := ih accepted
              fun iv member => bounded iv (List.mem_cons_of_mem _ member)
            have gap := below e rfl top
            simp only at top gap
            refine ⟨Intervals.canonical_cons.mpr ⟨⟨by omega, by simp only; omega, top⟩, gap, canonical⟩,
              ?_⟩
            intro pe known limit iv member
            subst known
            simp only [Option.any_some, decide_eq_true_eq] at behind
            unfold Intervals.saturatingSucc at behind
            rcases List.mem_cons.mp member with rfl | later
            · show pe + 1 < s
              omega
            · have next := gap iv later
              omega

theorem canonical_of_checkEpochs (accepted : checkEpochs entries = .ok ())
    (bounded : ∀ entry ∈ entries, ∀ iv ∈ entry.2, iv.2 ≤ u64Max) :
    ∀ entry ∈ entries, Intervals.Canonical u64Max entry.2 := by
  induction entries with
  | nil => simp
  | cons entry rest ih =>
    obtain ⟨epoch, ivs⟩ := entry
    simp only [checkEpochs] at accepted
    cases first : checkIntervals epoch none ivs with
    | error e =>
      rw [first] at accepted
      cases accepted
    | ok done =>
      rw [first] at accepted
      intro entry member
      rcases List.mem_cons.mp member with rfl | later
      · exact (canonical_of_checkIntervals first (bounded _ List.mem_cons_self)).1
      · exact ih accepted (fun entry member => bounded entry (List.mem_cons_of_mem _ member))
          entry later

theorem collect_bounded (wire : WireRanges) :
    ∀ epoch v, (collect wire).get? epoch = some v → ∀ iv ∈ v, iv.2 ≤ u64Max := by
  unfold collect
  suffices bounded : ∀ map : BTreeMap Nat (List Interval),
      (∀ epoch v, map.get? epoch = some v → ∀ iv ∈ v, iv.2 ≤ u64Max) →
      ∀ epoch v, (wire.foldl (fun map entry => map.alter entry.1.toNat fun _ =>
        entry.2.map fun iv => (iv.1.toNat, iv.2.toNat)) map).get? epoch = some v →
          ∀ iv ∈ v, iv.2 ≤ u64Max by
    apply bounded
    intro epoch v found
    cases found
  induction wire with
  | nil => exact fun map bounded => bounded
  | cons entry wire ih =>
    intro map bounded
    rw [List.foldl_cons]
    apply ih
    intro epoch v found
    rw [BTreeMap.get?_alter] at found
    split at found
    · cases found
      intro iv member
      obtain ⟨pair, _, rfl⟩ := List.mem_map.mp member
      have small := pair.2.toNat_lt
      show pair.2.toNat ≤ u64Max
      unfold u64Max
      omega
    · exact bounded epoch v found

theorem decode_canonical {fromBytes : Bytes → Except String WireRanges} {buf : Bytes}
    (decoded : decode fromBytes buf = .ok set) : set.Canonical := by
  unfold decode at decoded
  cases wired : fromBytes buf with
  | error e =>
    rw [wired] at decoded
    cases decoded
  | ok wire =>
    rw [wired] at decoded
    cases accepted : checkEpochs (collect wire).entries with
    | error e => simp [accepted, bind, Except.bind] at decoded
    | ok done =>
      simp only [accepted, bind, Except.bind, pure, Except.pure, Except.ok.injEq] at decoded
      subst decoded
      intro epoch v found
      have member := BTreeMap.get?_eq_some_iff.mp found
      refine canonical_of_checkEpochs accepted ?_ _ member
      intro entry inside
      exact collect_bounded wire _ _ (BTreeMap.get?_eq_some_iff.mpr inside)

theorem apply_valid (canonical : set.Canonical) (valid : i.Valid) :
    ∃ after, i.apply set = some after ∧ after.Canonical ∧
      (∀ g, after.Holds g ↔ set.Holds g ∨ i.Adds g) ∧
      ∀ epoch, (after.ranges.get? epoch).isSome ↔ (set.ranges.get? epoch).isSome ∨ i.epoch = epoch := by
  obtain ⟨positive, order, bounded⟩ := valid
  have lists : Intervals.Canonical u64Max ((set.ranges.get? i.epoch).getD []) := by
    cases found : set.ranges.get? i.epoch with
    | none => exact Intervals.canonical_nil
    | some v => exact canonical i.epoch v found
  refine ⟨⟨set.ranges.alter i.epoch fun v => Intervals.insertRange u64Max i.start i.stop (v.getD [])⟩,
    ?_, ?_, ?_, ?_⟩
  · rw [i.apply_eq, insertRange, if_pos ⟨positive, order⟩]
  · intro epoch v found
    rw [BTreeMap.get?_alter] at found
    split at found
    · cases found
      exact Intervals.insertRange_canonical lists positive order bounded
    · exact canonical epoch v found
  · intro g
    unfold Holds Insertion.Adds
    simp only [BTreeMap.get?_alter]
    by_cases same : g.epoch = i.epoch
    · have covers := Intervals.insertRange_covers (x := g.seq) lists order bounded
      simp only [same, if_true, Option.some.injEq, exists_eq_left', true_and, covers]
      cases found : set.ranges.get? i.epoch with
      | none => simp
      | some v => simp
    · simp only [if_neg same, Ne.symm same, false_and, or_false]
  · intro epoch
    simp only [BTreeMap.get?_alter]
    by_cases same : epoch = i.epoch
    · simp [same]
    · simp [same, Ne.symm same]

theorem insertAll_valid (canonical : set.Canonical) (valid : ∀ i ∈ insertions, i.Valid) :
    ∃ result, insertAll set insertions = some result ∧ result.Canonical ∧
      (∀ g, result.Holds g ↔ set.Holds g ∨ ∃ i ∈ insertions, i.Adds g) ∧
      ∀ epoch, (result.ranges.get? epoch).isSome ↔
        (set.ranges.get? epoch).isSome ∨ ∃ i ∈ insertions, i.epoch = epoch := by
  induction insertions generalizing set with
  | nil => exact ⟨set, rfl, canonical, by simp, by simp⟩
  | cons i insertions ih =>
    obtain ⟨middle, applied, canonicalMiddle, holds, present⟩ :=
      apply_valid canonical (valid i List.mem_cons_self)
    obtain ⟨result, run, canonicalResult, holdsResult, presentResult⟩ :=
      ih canonicalMiddle fun j member => valid j (List.mem_cons_of_mem _ member)
    refine ⟨result, ?_, canonicalResult, ?_, ?_⟩
    · rw [insertAll, List.foldlM_cons, applied]
      exact run
    · intro g
      simp only [holdsResult, holds, List.mem_cons, or_and_right, exists_or, exists_eq_left, or_assoc]
    · intro epoch
      simp only [presentResult, present, List.mem_cons, or_and_right, exists_or, exists_eq_left,
        or_assoc]

theorem eq_of_holds (canonicalA : set.Canonical) (canonicalB : other.Canonical)
    (present : ∀ epoch, (set.ranges.get? epoch).isSome ↔ (other.ranges.get? epoch).isSome)
    (holds : ∀ g, set.Holds g ↔ other.Holds g) : set = other := by
  have maps : set.ranges = other.ranges := by
    apply BTreeMap.ext_get?
    intro epoch
    have both := present epoch
    cases foundA : set.ranges.get? epoch with
    | none =>
      cases foundB : other.ranges.get? epoch with
      | none => rfl
      | some w => simp [foundA, foundB] at both
    | some v =>
      cases foundB : other.ranges.get? epoch with
      | none => simp [foundA, foundB] at both
      | some w =>
        have lists : v = w := by
          apply Intervals.canonical_ext (canonicalA epoch v foundA) (canonicalB epoch w foundB)
          intro x
          have points := holds ⟨epoch, x⟩
          simpa [Holds, foundA, foundB] using points
        rw [lists]
  cases set
  cases other
  cases maps
  rfl

theorem isSubsetLoop_missing {rest : List (Nat × List Interval)}
    (missing : other.ranges.get? epoch = none) :
    isSubsetLoop other ((epoch, ivs) :: rest) = ivs.isEmpty := by
  rw [isSubsetLoop, missing]

theorem isSubsetLoop_present {oivs : List Interval} {rest : List (Nat × List Interval)}
    (present : other.ranges.get? epoch = some oivs) :
    isSubsetLoop other ((epoch, ivs) :: rest) =
      (ivs.all (Intervals.covered oivs) && isSubsetLoop other rest) := by
  rw [isSubsetLoop, present]
  cases all : ivs.all (Intervals.covered oivs) with
  | true => simp [all]
  | false => simp [all]

/-- The loop decides inclusion as long as every missing epoch without intervals is
followed by such epochs only. -/
theorem isSubsetLoop_iff (canonical : other.Canonical)
    (lists : ∀ entry ∈ entries, Intervals.Canonical u64Max entry.2)
    (solid : entries.Pairwise fun a b => a.2 = [] → b.2 = []) :
    isSubsetLoop other entries = true ↔
      ∀ entry ∈ entries, ∀ x, Intervals.Covers entry.2 x → other.Holds ⟨entry.1, x⟩ := by
  induction entries with
  | nil => simp [isSubsetLoop]
  | cons entry rest ih =>
    obtain ⟨epoch, ivs⟩ := entry
    obtain ⟨followed, solidRest⟩ := List.pairwise_cons.mp solid
    have ivsCanonical := lists (epoch, ivs) List.mem_cons_self
    have loop := ih (fun entry member => lists entry (List.mem_cons_of_mem _ member)) solidRest
    rw [List.forall_mem_cons, ← loop]
    cases found : other.ranges.get? epoch with
    | none =>
      rw [isSubsetLoop_missing found]
      simp only [Holds, found]
      cases ivs with
      | nil =>
        have rest : isSubsetLoop other rest = true := by
          rw [loop]
          intro entry member x covers
          rw [followed entry member rfl] at covers
          exact absurd covers Intervals.covers_nil
        simp [rest]
      | cons iv ivs =>
        have bounds := ivsCanonical.bounds iv List.mem_cons_self
        simp only [List.isEmpty_cons, Bool.false_eq_true, false_iff, not_and]
        intro all
        have nowhere := all iv.1 (Intervals.covers_cons.mpr (.inl ⟨Nat.le_refl _, bounds.2.1⟩))
        simp at nowhere
    | some oivs =>
      have inside : ivs.all (Intervals.covered oivs) = true ↔
          ∀ x, Intervals.Covers ivs x → other.Holds ⟨epoch, x⟩ := by
        simp only [Holds, found, Option.some.injEq, exists_eq_left', List.all_eq_true]
        constructor
        · rintro all x ⟨iv, member, low, high⟩
          exact (Intervals.covered_iff (canonical epoch oivs found)
            (ivsCanonical.bounds iv member).2.1).mp (all iv member) x low high
        · intro all iv member
          rw [Intervals.covered_iff (canonical epoch oivs found)
            (ivsCanonical.bounds iv member).2.1]
          intro x low high
          exact all x ⟨iv, member, low, high⟩
      rw [← inside, isSubsetLoop_present found, Bool.and_eq_true]

theorem forall_holds_iff {property : Gtid → Prop} :
    (∀ g, set.Holds g → property g) ↔
      ∀ entry ∈ set.ranges.entries, ∀ x, Intervals.Covers entry.2 x → property ⟨entry.1, x⟩ := by
  constructor
  · intro all entry member x covers
    exact all ⟨entry.1, x⟩ ⟨entry.2, BTreeMap.get?_eq_some_iff.mpr member, covers⟩
  · rintro all g ⟨v, found, covers⟩
    exact all (g.epoch, v) (BTreeMap.get?_eq_some_iff.mp found) g.seq covers

theorem solid_of_not_hollow (full : ¬set.Hollow) :
    set.ranges.entries.Pairwise fun a b => a.2 = [] → b.2 = [] := by
  apply set.ranges.sorted.imp_of_mem
  intro a b inA inB below empty
  by_contra nonempty
  refine full ⟨a.1, b.1, b.2, below, ?_, BTreeMap.get?_eq_some_iff.mpr inB, nonempty⟩
  rw [← empty]
  exact BTreeMap.get?_eq_some_iff.mpr inA

theorem isSubset_iff (canonicalA : set.Canonical) (canonicalB : other.Canonical)
    (full : ¬set.Hollow) : set.isSubset other = true ↔ ∀ g, set.Holds g → other.Holds g := by
  rw [forall_holds_iff]
  apply isSubsetLoop_iff canonicalB _ (solid_of_not_hollow full)
  intro entry member
  exact canonicalA entry.1 entry.2 (BTreeMap.get?_eq_some_iff.mpr member)

def rebuild (entries : List (Nat × List Interval)) : List Insertion :=
  entries.flatMap fun entry => entry.2.map fun iv => .insertRange entry.1 iv.1 iv.2

theorem isSubsetLoop_append {left right : List (Nat × List Interval)}
    (covered : ∀ entry ∈ left, ∃ oivs, other.ranges.get? entry.1 = some oivs ∧
      entry.2.all (Intervals.covered oivs) = true) :
    isSubsetLoop other (left ++ right) = isSubsetLoop other right := by
  induction left with
  | nil => rfl
  | cons entry left ih =>
    obtain ⟨oivs, found, all⟩ := covered entry List.mem_cons_self
    rw [List.cons_append, isSubsetLoop_present found, all, Bool.true_and]
    exact ih fun other member => covered other (List.mem_cons_of_mem _ member)

theorem split_at_empty (member : (epoch, []) ∈ entries) :
    ∃ before first behind, entries = before ++ (first, []) :: behind ∧
      (∀ entry ∈ before, entry.2 ≠ []) ∧ (epoch, []) ∈ (first, []) :: behind := by
  induction entries with
  | nil => cases member
  | cons entry rest ih =>
    obtain ⟨head, ivs⟩ := entry
    cases ivs with
    | nil => exact ⟨[], head, rest, rfl, by simp, member⟩
    | cons iv ivs =>
      have later : (epoch, []) ∈ rest := by
        rcases List.mem_cons.mp member with same | later
        · cases same
        · exact later
      obtain ⟨before, first, behind, rfl, nonempty, here⟩ := ih later
      refine ⟨(head, iv :: ivs) :: before, first, behind, rfl, ?_, here⟩
      intro entry inside
      rcases List.mem_cons.mp inside with rfl | earlier
      · simp
      · exact nonempty entry earlier

theorem hollow_misjudged (canonical : set.Canonical) (hollow : set.Hollow)
    (fromBytes : Bytes → Except String WireRanges) :
    ∃ other, Built fromBytes other ∧ set.isSubset other = true ∧
      ∃ g, set.Holds g ∧ ¬other.Holds g := by
  obtain ⟨epoch, later, v, below, empty, found, nonempty⟩ := hollow
  obtain ⟨before, first, behind, split, filled, here⟩ :=
    split_at_empty (BTreeMap.get?_eq_some_iff.mp empty)
  have sorted := set.ranges.sorted
  rw [split] at sorted
  obtain ⟨_, sortedBehind, across⟩ := List.pairwise_append.mp sorted
  have lists : ∀ entry ∈ before, Intervals.Canonical u64Max entry.2 := by
    intro entry member
    apply canonical entry.1 entry.2 (BTreeMap.get?_eq_some_iff.mpr _)
    rw [split]
    exact List.mem_append_left _ member
  have valid : ∀ i ∈ rebuild before, i.Valid := by
    intro i member
    obtain ⟨entry, inBefore, inEntry⟩ := List.mem_flatMap.mp member
    obtain ⟨iv, inside, rfl⟩ := List.mem_map.mp inEntry
    exact (lists entry inBefore).bounds iv inside
  obtain ⟨other, run, canonicalOther, holds, present⟩ := insertAll_valid new_canonical valid
  have atMost : first ≤ epoch := by
    rcases List.mem_cons.mp here with same | behindFirst
    · cases same
      exact Nat.le_refl _
    · exact Nat.le_of_lt ((List.pairwise_cons.mp sortedBehind).1 _ behindFirst)
  have untouched : ∀ target, first ≤ target → ∀ i ∈ rebuild before, i.epoch ≠ target := by
    intro target above i member same
    obtain ⟨entry, inBefore, inEntry⟩ := List.mem_flatMap.mp member
    obtain ⟨iv, inside, rfl⟩ := List.mem_map.mp inEntry
    have earlier := across entry inBefore (first, []) List.mem_cons_self
    simp only [Insertion.epoch] at same earlier
    omega
  refine ⟨other, ⟨new, rebuild before, .inl rfl, valid, run⟩, ?_, ?_⟩
  · have missing : other.ranges.get? first = none := by
      rw [← Option.not_isSome_iff_eq_none, present]
      rintro (inNew | ⟨i, member, same⟩)
      · cases inNew
      · exact untouched first (Nat.le_refl _) i member same
    rw [isSubset, split, isSubsetLoop_append, isSubsetLoop_missing missing]
    · rfl
    · intro entry member
      have added : ∀ iv ∈ entry.2, .insertRange entry.1 iv.1 iv.2 ∈ rebuild before := fun iv inside =>
        List.mem_flatMap.mpr ⟨entry, member, List.mem_map.mpr ⟨iv, inside, rfl⟩⟩
      obtain ⟨iv, inside⟩ := List.exists_mem_of_ne_nil _ (filled entry member)
      obtain ⟨oivs, there⟩ := Option.isSome_iff_exists.mp
        ((present entry.1).mpr (.inr ⟨_, added iv inside, rfl⟩))
      refine ⟨oivs, there, List.all_eq_true.mpr ?_⟩
      intro iv inside
      rw [Intervals.covered_iff (canonicalOther entry.1 oivs there)
        ((lists entry member).bounds iv inside).2.1]
      intro x low high
      obtain ⟨w, same, covers⟩ := (holds ⟨entry.1, x⟩).mpr (.inr ⟨_, added iv inside, rfl, low, high⟩)
      rw [there] at same
      cases same
      exact covers
  · obtain ⟨iv, inside⟩ := List.exists_mem_of_ne_nil _ nonempty
    have order := ((canonical later v found).bounds iv inside).2.1
    refine ⟨⟨later, iv.1⟩, ⟨v, found, iv, inside, Nat.le_refl _, order⟩, ?_⟩
    rw [holds]
    rintro (⟨w, inNew, _⟩ | ⟨i, member, same, _⟩)
    · cases inNew
    · exact untouched later (by omega) i member same

theorem Built.canonical {fromBytes : Bytes → Except String WireRanges} (built : Built fromBytes set) :
    set.Canonical := by
  obtain ⟨first, insertions, start, valid, run⟩ := built
  have canonical : first.Canonical := by
    rcases start with rfl | ⟨buf, decoded⟩
    · exact new_canonical
    · exact decode_canonical decoded
  obtain ⟨result, again, canonicalResult, _⟩ := insertAll_valid canonical valid
  rw [run] at again
  cases again
  exact canonicalResult

/-- Insertions keep the intervals canonical and add their numbers in any order; and the
set is compared rightly with every other set just when no epoch without intervals
stands before one that has some. -/
theorem insertAll_represents_iff (fromBytes : Bytes → Except String WireRanges)
    {first : GtidSet} {insertions : List Insertion}
    (start : first = new ∨ ∃ buf, decode fromBytes buf = .ok first)
    (valid : ∀ i ∈ insertions, i.Valid) :
    ∃ set, insertAll first insertions = some set ∧ set.Canonical ∧
      (∀ g, set.contains g = true ↔ first.contains g = true ∨ ∃ i ∈ insertions, i.Adds g) ∧
      (∀ reordered, reordered.Perm insertions → insertAll first reordered = some set) ∧
      ((∀ other, Built fromBytes other →
          (set.isSubset other = true ↔ ∀ g, set.contains g = true → other.contains g = true)) ↔
        ¬set.Hollow) := by
  have canonical : first.Canonical := by
    rcases start with rfl | ⟨buf, decoded⟩
    · exact new_canonical
    · exact decode_canonical decoded
  obtain ⟨set, run, canonicalSet, holds, present⟩ := insertAll_valid canonical valid
  refine ⟨set, run, canonicalSet, ?_, ?_, ?_⟩
  · intro g
    rw [contains_iff canonicalSet, contains_iff canonical, holds]
  · intro reordered perm
    obtain ⟨again, runAgain, canonicalAgain, holdsAgain, presentAgain⟩ :=
      insertAll_valid canonical fun i member => valid i (perm.mem_iff.mp member)
    rw [runAgain]
    congr 1
    apply eq_of_holds canonicalAgain canonicalSet
    · intro epoch
      simp only [presentAgain, present, perm.mem_iff]
    · intro g
      simp only [holdsAgain, holds, perm.mem_iff]
  · constructor
    · intro right hollow
      obtain ⟨other, built, judged, g, inside, outside⟩ := hollow_misjudged canonicalSet hollow fromBytes
      have wrong := (right other built).mp judged g ((contains_iff canonicalSet g).mpr inside)
      exact outside ((contains_iff built.canonical g).mp wrong)
    · intro full other built
      rw [isSubset_iff canonicalSet built.canonical full]
      simp only [contains_iff canonicalSet, contains_iff built.canonical]

/-- The variable-length integers of `postcard`: seven bits a byte, low bits first, at
most ten bytes. -/
def varint : Nat → Bytes → Except String (Nat × Bytes)
  | 0, _ => .error "Found a varint that didn't terminate"
  | _ + 1, [] => .error "Hit the end of buffer"
  | fuel + 1, byte :: rest =>
    if byte < 128 then .ok (byte.toNat, rest)
    else do
      let (high, rest) ← varint fuel rest
      return (byte.toNat - 128 + 128 * high, rest)

def wireU64 (buf : Bytes) : Except String (UInt64 × Bytes) := do
  let (value, rest) ← varint 10 buf
  if value < 2 ^ 64 then return (UInt64.ofNat value, rest)
  else .error "Found a varint that didn't terminate"

def wireItems {α : Type} (item : Bytes → Except String (α × Bytes)) :
    Nat → Bytes → Except String (List α × Bytes)
  | 0, buf => .ok ([], buf)
  | count + 1, buf => do
      let (first, rest) ← item buf
      let (others, rest) ← wireItems item count rest
      return (first :: others, rest)

def wireInterval (buf : Bytes) : Except String ((UInt64 × UInt64) × Bytes) := do
  let (first, rest) ← wireU64 buf
  let (last, rest) ← wireU64 rest
  return ((first, last), rest)

def wireEpoch (buf : Bytes) : Except String ((UInt64 × List (UInt64 × UInt64)) × Bytes) := do
  let (epoch, rest) ← wireU64 buf
  let (count, rest) ← varint 10 rest
  let (ivs, rest) ← wireItems wireInterval count rest
  return ((epoch, ivs), rest)

/-- `postcard::from_bytes` at the type of `ranges`; bytes behind the value are ignored. -/
def postcardRanges (buf : Bytes) : Except String WireRanges := do
  let (count, rest) ← varint 10 buf
  let (wire, _) ← wireItems wireEpoch count rest
  return wire

theorem insertAll_represents_iff_new :
    ∃ set, insertAll new [.insertRange 1 3 5, .insert ⟨1, 2⟩] = some set ∧ set.Canonical := by
  have valid : ∀ i ∈ [Insertion.insertRange 1 3 5, .insert ⟨1, 2⟩], i.Valid := by
    simp [Insertion.Valid, Insertion.start, Insertion.stop, u64Max]
  obtain ⟨set, run, canonical, _⟩ := insertAll_represents_iff postcardRanges (.inl rfl) valid
  exact ⟨set, run, canonical⟩

/-- The bytes of a set with no interval in epoch 1 and the interval 1 to 5 in epoch 2 are
accepted, and that set is taken for a subset of the empty one. -/
theorem isSubset_skips_epochs :
    ∃ set, decode postcardRanges [2, 1, 0, 2, 1, 1, 5] = .ok set ∧
      set.isSubset new = true ∧ set.contains ⟨2, 1⟩ = true ∧ new.contains ⟨2, 1⟩ = false := by
  refine ⟨⟨collect [(1, []), (2, [(1, 5)])]⟩, ?_, ?_, ?_, ?_⟩
  · rfl
  · rfl
  · rfl
  · rfl

end GtidSet

end FastS3.Core
