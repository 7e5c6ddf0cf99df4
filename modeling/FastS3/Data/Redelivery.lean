import Mathlib.Data.List.Dedup
import Mathlib.Data.List.Sort
import Mathlib.Data.Set.List

namespace FastS3.Data

/-! Streams whose entries may be delivered again.

A consumer remembers the rank of the last entry it took and lets entries of that rank or a
smaller one pass.  If nothing of the stream is left out, it takes every entry once.
-/

variable {σ δ ω : Type} [LinearOrder ω]

structure Consumer (σ δ ω : Type) [LinearOrder ω] where
  step : σ → δ → σ
  cursor : σ → ω
  rank : δ → ω
  step_cases : ∀ state entry, step state entry = state ∨
    cursor state < rank entry ∧ cursor (step state entry) = rank entry

namespace Consumer

variable (consumer : Consumer σ δ ω)

def run (state : σ) (entries : List δ) : σ :=
  entries.foldl consumer.step state

def taken : σ → List δ → List δ
  | _, [] => []
  | state, entry :: entries =>
    let rest := taken (consumer.step state entry) entries
    if consumer.cursor state < consumer.cursor (consumer.step state entry) then entry :: rest
    else rest

def Gapless (stream : List ω) : σ → List δ → Prop
  | _, [] => True
  | state, entry :: entries =>
    (∀ before ∈ stream, before < consumer.rank entry → before ≤ consumer.cursor state) ∧
      consumer.rank entry ∈ stream ∧ Gapless stream (consumer.step state entry) entries

variable {consumer} {stream : List ω} {state : σ} {entry : δ} {entries : List δ}

theorem step_of_le (passed : consumer.rank entry ≤ consumer.cursor state) :
    consumer.step state entry = state :=
  (consumer.step_cases state entry).resolve_right fun taken => absurd taken.1 (not_lt.mpr passed)

theorem cursor_le_step (state : σ) (entry : δ) :
    consumer.cursor state ≤ consumer.cursor (consumer.step state entry) := by
  rcases consumer.step_cases state entry with same | ⟨less, moved⟩
  · rw [same]
  · rw [moved]
    exact less.le

theorem cursor_le_run (state : σ) (entries : List δ) :
    consumer.cursor state ≤ consumer.cursor (consumer.run state entries) := by
  induction entries generalizing state with
  | nil => exact le_rfl
  | cons entry entries ih => exact (cursor_le_step state entry).trans (ih _)

theorem run_append (state : σ) (entries later : List δ) :
    consumer.run state (entries ++ later) = consumer.run (consumer.run state entries) later :=
  List.foldl_append ..

theorem gapless_append {later : List δ} :
    consumer.Gapless stream state (entries ++ later) ↔
      consumer.Gapless stream state entries ∧
        consumer.Gapless stream (consumer.run state entries) later := by
  induction entries generalizing state with
  | nil => simp [Gapless, run]
  | cons entry entries ih => simp only [List.cons_append, Gapless, ih, run, List.foldl_cons, and_assoc]

theorem taken_of_same (same : consumer.step state entry = state) :
    consumer.taken state (entry :: entries) = consumer.taken state entries := by
  rw [taken, same, if_neg (lt_irrefl _)]

theorem taken_of_moved (less : consumer.cursor state < consumer.rank entry)
    (moved : consumer.cursor (consumer.step state entry) = consumer.rank entry) :
    consumer.taken state (entry :: entries) =
      entry :: consumer.taken (consumer.step state entry) entries := by
  rw [taken, if_pos (by rw [moved]; exact less)]

theorem run_taken (state : σ) (entries : List δ) :
    consumer.run state (consumer.taken state entries) = consumer.run state entries := by
  induction entries generalizing state with
  | nil => rfl
  | cons entry entries ih =>
    rcases consumer.step_cases state entry with same | ⟨less, moved⟩
    · rw [taken_of_same same, ih]
      simp only [run, List.foldl_cons, same]
    · rw [taken_of_moved less moved]
      exact ih _

theorem mem_of_mem_taken {other : δ} (inside : other ∈ consumer.taken state entries) :
    other ∈ entries := by
  induction entries generalizing state with
  | nil => exact inside
  | cons entry entries ih =>
    rw [taken] at inside
    split at inside
    · rcases List.mem_cons.mp inside with rfl | later
      · exact List.mem_cons_self
      · exact List.mem_cons_of_mem _ (ih later)
    · exact List.mem_cons_of_mem _ (ih inside)

theorem taken_between {other : δ} (inside : other ∈ consumer.taken state entries) :
    consumer.cursor state < consumer.rank other ∧
      consumer.rank other ≤ consumer.cursor (consumer.run state entries) := by
  induction entries generalizing state with
  | nil => exact absurd inside List.not_mem_nil
  | cons entry entries ih =>
    rcases consumer.step_cases state entry with same | ⟨less, moved⟩
    · rw [taken_of_same same] at inside
      obtain ⟨above, below⟩ := ih inside
      exact ⟨above, by simpa only [run, List.foldl_cons, same] using below⟩
    · rw [taken_of_moved less moved] at inside
      have rest : consumer.cursor (consumer.step state entry) ≤
          consumer.cursor (consumer.run state (entry :: entries)) := cursor_le_run _ entries
      rcases List.mem_cons.mp inside with rfl | later
      · exact ⟨less, moved ▸ rest⟩
      · exact ⟨less.trans (moved ▸ (ih later).1), (ih later).2⟩

theorem taken_ascending (state : σ) (entries : List δ) :
    (consumer.taken state entries).Pairwise fun x y => consumer.rank x < consumer.rank y := by
  induction entries generalizing state with
  | nil => exact List.Pairwise.nil
  | cons entry entries ih =>
    rcases consumer.step_cases state entry with same | ⟨less, moved⟩
    · rw [taken_of_same same]
      exact ih state
    · rw [taken_of_moved less moved, List.pairwise_cons]
      exact ⟨fun other inside => moved ▸ (taken_between inside).1, ih _⟩

theorem mem_stream (gapless : consumer.Gapless stream state entries) {other : δ}
    (inside : other ∈ entries) : consumer.rank other ∈ stream := by
  induction entries generalizing state with
  | nil => exact absurd inside List.not_mem_nil
  | cons entry entries ih =>
    obtain ⟨_, listed, rest⟩ := gapless
    rcases List.mem_cons.mp inside with rfl | later
    · exact listed
    · exact ih rest later

theorem next_taken (gapless : consumer.Gapless stream state entries) {next : ω} (listed : next ∈ stream)
    (ahead : consumer.cursor state < next)
    (least : ∀ before ∈ stream, before < next → before ≤ consumer.cursor state) :
    (∃ same ∈ consumer.taken state entries, consumer.rank same = next) ∨
      consumer.run state entries = state := by
  induction entries with
  | nil => exact .inr rfl
  | cons entry entries ih =>
    obtain ⟨passed, listed', rest⟩ := gapless
    rcases consumer.step_cases state entry with same | ⟨less, moved⟩
    · rw [same] at rest
      rw [taken_of_same same]
      have whole : consumer.run state (entry :: entries) = consumer.run state entries := by
        simp only [run, List.foldl_cons, same]
      rw [whole]
      exact ih rest
    · refine .inl ⟨entry, by rw [taken_of_moved less moved]; exact List.mem_cons_self, ?_⟩
      rcases lt_trichotomy (consumer.rank entry) next with smaller | equal | greater
      · exact absurd less (not_lt.mpr (least _ listed' smaller))
      · exact equal
      · exact absurd ahead (not_lt.mpr (passed next listed greater))

theorem delivered_cases (gapless : consumer.Gapless stream state entries) {other : δ}
    (inside : other ∈ entries) :
    consumer.rank other ≤ consumer.cursor state ∨
      (∃ same ∈ consumer.taken state entries, consumer.rank same = consumer.rank other) ∨
      consumer.cursor (consumer.run state entries) < consumer.rank other ∧
        consumer.step (consumer.run state entries) other = consumer.run state entries := by
  induction entries generalizing state with
  | nil => exact absurd inside List.not_mem_nil
  | cons entry entries ih =>
    have listed := mem_stream gapless inside
    obtain ⟨passed, _, rest⟩ := gapless
    rcases consumer.step_cases state entry with same | ⟨less, moved⟩
    · have whole : consumer.run state (entry :: entries) = consumer.run state entries := by
        simp only [run, List.foldl_cons, same]
      rw [same] at rest
      rw [taken_of_same same, whole]
      rcases List.mem_cons.mp inside with rfl | later
      · rcases le_or_gt (consumer.rank other) (consumer.cursor state) with behind | ahead
        · exact .inl behind
        · rcases next_taken rest listed ahead passed with found | idle
          · exact .inr (.inl found)
          · rw [idle]
            exact .inr (.inr ⟨ahead, same⟩)
      · exact ih rest later
    · rw [taken_of_moved less moved]
      have head : consumer.rank other ≤ consumer.rank entry → consumer.rank other ≤
          consumer.cursor state ∨ consumer.rank entry = consumer.rank other := by
        intro below
        rcases below.lt_or_eq with smaller | equal
        · exact .inl (passed _ listed smaller)
        · exact .inr equal.symm
      rcases List.mem_cons.mp inside with rfl | later
      · exact .inr (.inl ⟨other, List.mem_cons_self, rfl⟩)
      · rcases ih rest later with behind | ⟨found, taken, equal⟩ | idle
        · rw [moved] at behind
          rcases head behind with before | equal
          · exact .inl before
          · exact .inr (.inl ⟨entry, List.mem_cons_self, equal⟩)
        · exact .inr (.inl ⟨found, List.mem_cons_of_mem _ taken, equal⟩)
        · exact .inr (.inr idle)

theorem exists_representatives (rank : δ → ω) (entries : List δ) :
    ∃ picked : List δ, (picked.Pairwise fun x y => rank x < rank y) ∧ (∀ x ∈ picked, x ∈ entries) ∧
      ∀ y ∈ entries, ∃ x ∈ picked, rank x = rank y := by
  have ranks : ∀ r ∈ (entries.map rank).dedup.mergeSort (· ≤ ·),
      r ∈ Set.range fun entry : { entry // entry ∈ entries } => rank entry := by
    intro r inside
    rw [List.mem_mergeSort, List.mem_dedup, List.mem_map] at inside
    obtain ⟨entry, member, same⟩ := inside
    exact ⟨⟨entry, member⟩, same⟩
  have lifted : (entries.map rank).dedup.mergeSort (· ≤ ·) ∈
      Set.range (List.map fun entry : { entry // entry ∈ entries } => rank entry) := by
    rw [Set.range_list_map]
    exact ranks
  obtain ⟨picked, whole⟩ := lifted
  refine ⟨picked.map Subtype.val, ?_, ?_, ?_⟩
  · have distinct : ((entries.map rank).dedup.mergeSort (· ≤ ·)).Nodup :=
      ((List.mergeSort_perm _ _).nodup_iff).mpr (List.nodup_dedup _)
    have ascending := (List.pairwise_mergeSort' (· ≤ ·) (entries.map rank).dedup).and distinct
    rw [← whole, List.pairwise_map] at ascending
    rw [List.pairwise_map]
    exact ascending.imp fun related => lt_of_le_of_ne related.1 related.2
  · intro x inside
    obtain ⟨entry, _, rfl⟩ := List.mem_map.mp inside
    exact entry.2
  · intro y inside
    have member : rank y ∈ (entries.map rank).dedup.mergeSort (· ≤ ·) := by
      rw [List.mem_mergeSort, List.mem_dedup]
      exact List.mem_map_of_mem inside
    rw [← whole, List.mem_map] at member
    obtain ⟨entry, found, same⟩ := member
    exact ⟨entry, List.mem_map_of_mem found, same⟩

theorem run_idle (state : σ) (entries : List δ)
    (idle : ∀ entry ∈ entries, consumer.step state entry = state) :
    consumer.run state entries = state := by
  induction entries with
  | nil => rfl
  | cons entry entries ih =>
    rw [run, List.foldl_cons, idle entry List.mem_cons_self]
    exact ih fun other inside => idle other (List.mem_cons_of_mem _ inside)

theorem exactly_once (gapless : consumer.Gapless stream state entries) :
    ∃ once : List δ, (once.Pairwise fun x y => consumer.rank x < consumer.rank y) ∧
      (∀ x ∈ once, x ∈ entries) ∧ (∀ y ∈ entries, ∃ x ∈ once, consumer.rank x = consumer.rank y) ∧
      consumer.run state once = consumer.run state entries := by
  -- what lies behind the run, what it takes, and what it does not take at its end
  obtain ⟨behind, sortedBehind, fromBehind, allBehind⟩ := exists_representatives consumer.rank
    (entries.filter fun entry => consumer.rank entry ≤ consumer.cursor state)
  obtain ⟨ahead, sortedAhead, fromAhead, allAhead⟩ := exists_representatives consumer.rank
    (entries.filter fun entry =>
      consumer.cursor (consumer.run state entries) < consumer.rank entry)
  simp only [List.mem_filter, decide_eq_true_eq] at fromBehind allBehind fromAhead allAhead
  have rising : consumer.cursor state ≤ consumer.cursor (consumer.run state entries) :=
    cursor_le_run state entries
  refine ⟨behind ++ (consumer.taken state entries ++ ahead), ?_, ?_, ?_, ?_⟩
  · refine List.pairwise_append.mpr ⟨sortedBehind, ?_, ?_⟩
    · refine List.pairwise_append.mpr ⟨taken_ascending state entries, sortedAhead, ?_⟩
      intro x taken y left
      exact (taken_between taken).2.trans_lt (fromAhead y left).2
    · intro x passed y later
      have below := (fromBehind x passed).2
      rcases List.mem_append.mp later with taken | left
      · exact below.trans_lt (taken_between taken).1
      · exact below.trans_lt (rising.trans_lt (fromAhead y left).2)
  · intro x inside
    rcases List.mem_append.mp inside with passed | later
    · exact (fromBehind x passed).1
    · rcases List.mem_append.mp later with taken | left
      · exact mem_of_mem_taken taken
      · exact (fromAhead x left).1
  · intro y inside
    simp only [List.mem_append]
    rcases delivered_cases gapless inside with passed | ⟨x, taken, same⟩ | ⟨left, _⟩
    · obtain ⟨x, member, same⟩ := allBehind y ⟨inside, passed⟩
      exact ⟨x, .inl member, same⟩
    · exact ⟨x, .inr (.inl taken), same⟩
    · obtain ⟨x, member, same⟩ := allAhead y ⟨inside, left⟩
      exact ⟨x, .inr (.inr member), same⟩
  · have skipped : consumer.run state behind = state :=
      run_idle state behind fun x passed => step_of_le (fromBehind x passed).2
    rw [run_append, skipped, run_append, run_taken]
    apply run_idle
    intro x left
    obtain ⟨inside, beyond⟩ := fromAhead x left
    rcases delivered_cases gapless inside with passed | ⟨y, taken, same⟩ | ⟨_, idle⟩
    · exact absurd beyond (not_lt.mpr (passed.trans rising))
    · exact absurd beyond (not_lt.mpr (same ▸ (taken_between taken).2))
    · exact idle

end Consumer

end FastS3.Data
