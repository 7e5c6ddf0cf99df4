import FastS3.Data.BTreeMap

namespace FastS3.Data

/-! Logs that are cut at the front.

A log grows at its end, in ascending order, and loses entries at its front.  A reader that goes on
behind a position finds there what was written, unless an entry behind the position has been cut.
-/

variable {κ α : Type} [LinearOrder κ]

def behind (c : κ) (log : List (κ × α)) : List (κ × α) :=
  log.filter fun entry => c < entry.1

def between (start stop : κ) (log : List (κ × α)) : List (κ × α) :=
  log.filter fun entry => start < entry.1 ∧ entry.1 ≤ stop

def reached (c : κ) (taken : List (κ × α)) : κ :=
  (taken.getLast?.map Prod.fst).getD c

def Lost (whole kept : List (κ × α)) (c : κ) : Prop :=
  ∃ entry ∈ whole, c < entry.1 ∧ entry.1 ∉ kept.map Prod.fst

instance (whole kept : List (κ × α)) (c : κ) : Decidable (Lost whole kept c) :=
  inferInstanceAs (Decidable (∃ entry ∈ whole, _ ∧ _))

structure CutLog (whole kept : List (κ × α)) : Prop where
  ascending : whole.Pairwise fun entry later => entry.1 < later.1
  suffix : kept <:+ whole

variable {whole kept taken log : List (κ × α)} {first next : κ × α} {start c stop : κ}

theorem behind_append (c : κ) (front rest : List (κ × α)) :
    behind c (front ++ rest) = behind c front ++ behind c rest :=
  List.filter_append ..

theorem behind_eq_nil (none : ∀ entry ∈ log, entry.1 ≤ c) : behind c log = [] := by
  apply List.filter_eq_nil_iff.mpr
  intro entry inside
  simp [none entry inside]

theorem mem_behind {entry : κ × α} : entry ∈ behind c log ↔ entry ∈ log ∧ c < entry.1 := by
  simp [behind]

namespace CutLog

theorem split (cut : CutLog whole kept) :
    ∃ gone, whole = gone ++ kept ∧ ∀ entry ∈ gone, ∀ later ∈ kept, entry.1 < later.1 := by
  obtain ⟨gone, parts⟩ := cut.suffix
  have ascending := cut.ascending
  rw [← parts, List.pairwise_append] at ascending
  exact ⟨gone, parts.symm, ascending.2.2⟩

theorem lost_iff (cut : CutLog whole kept) :
    Lost whole kept c ↔ ∃ entry ∈ whole, c < entry.1 ∧ ∀ later ∈ kept, entry.1 < later.1 := by
  obtain ⟨gone, parts, front⟩ := cut.split
  constructor
  · intro ⟨entry, inside, later, absent⟩
    refine ⟨entry, inside, later, ?_⟩
    rw [parts] at inside
    obtain here | there := List.mem_append.mp inside
    · exact front entry here
    · exact absurd (List.mem_map_of_mem there) absent
  · intro ⟨entry, inside, later, ahead⟩
    refine ⟨entry, inside, later, ?_⟩
    intro present
    obtain ⟨other, there, same⟩ := List.mem_map.mp present
    have less := ahead other there
    rw [same] at less
    exact lt_irrefl _ less

theorem behind_eq (cut : CutLog whole kept) (found : ¬Lost whole kept c) :
    behind c kept = behind c whole := by
  obtain ⟨gone, parts, front⟩ := cut.split
  have passed : ∀ entry ∈ gone, entry.1 ≤ c := by
    intro entry inside
    by_contra later
    apply found
    rw [cut.lost_iff]
    refine ⟨entry, ?_, not_le.mp later, front entry inside⟩
    rw [parts]
    exact List.mem_append_left _ inside
  rw [parts, behind_append, behind_eq_nil passed, List.nil_append]

theorem lost_iff_below (cut : CutLog whole kept) (head : kept.head? = some first) :
    Lost whole kept c ↔ ∃ entry ∈ whole, c < entry.1 ∧ entry.1 < first.1 := by
  obtain ⟨rest, rfl⟩ := List.head?_eq_some_iff.mp head
  have ascending := List.pairwise_cons.mp (cut.ascending.sublist cut.suffix.sublist)
  rw [cut.lost_iff]
  constructor
  · intro ⟨entry, inside, later, ahead⟩
    exact ⟨entry, inside, later, ahead first List.mem_cons_self⟩
  · intro ⟨entry, inside, later, below⟩
    refine ⟨entry, inside, later, ?_⟩
    intro other there
    obtain rfl | there := List.mem_cons.mp there
    · exact below
    · exact below.trans (ascending.1 other there)

theorem append (cut : CutLog whole kept) (newest : ∀ entry ∈ whole, entry.1 < next.1) :
    CutLog (whole ++ [next]) (kept ++ [next]) := by
  obtain ⟨gone, parts, _⟩ := cut.split
  constructor
  · rw [List.pairwise_append]
    refine ⟨cut.ascending, List.pairwise_singleton _ _, ?_⟩
    intro entry inside other final
    rw [List.mem_singleton.mp final]
    exact newest entry inside
  · rw [parts, List.append_assoc]
    exact List.suffix_append gone _

theorem drop (cut : CutLog whole kept) (count : Nat) : CutLog whole (kept.drop count) :=
  ⟨cut.ascending, (List.drop_suffix count kept).trans cut.suffix⟩

end CutLog

theorem lost_drop {count : Nat} (found : ¬Lost whole kept c)
    (passed : ∀ entry ∈ kept.take count, entry.1 ≤ c) : ¬Lost whole (kept.drop count) c := by
  intro ⟨entry, inside, later, absent⟩
  apply found
  refine ⟨entry, inside, later, ?_⟩
  intro present
  obtain ⟨other, there, same⟩ := List.mem_map.mp present
  rw [← List.take_append_drop count kept] at there
  obtain taken | remains := List.mem_append.mp there
  · have less := passed other taken
    rw [same] at less
    exact absurd later (not_lt.mpr less)
  · apply absent
    rw [← same]
    exact List.mem_map_of_mem remains

theorem lost_append (newest : ¬Lost whole kept c) : ¬Lost (whole ++ [next]) (kept ++ [next]) c := by
  intro ⟨entry, inside, later, absent⟩
  rw [List.map_append, List.mem_append, not_or] at absent
  obtain old | new := List.mem_append.mp inside
  · exact newest ⟨entry, old, later, absent.1⟩
  · rw [List.mem_singleton.mp new] at absent
    exact absent.2 List.mem_cons_self

omit [LinearOrder κ] in
theorem reached_cons : reached c (first :: taken) = reached first.1 taken := by
  cases taken with
  | nil => rfl
  | cons second rest =>
    rw [reached, reached, List.getLast?_cons_cons]
    obtain ⟨last, isLast⟩ := Option.isSome_iff_exists.mp
      (List.getLast?_isSome.mpr (List.cons_ne_nil second rest))
    rw [isLast]
    rfl

theorem le_reached (ascending : taken.Pairwise fun entry later => entry.1 < later.1)
    (ahead : ∀ entry ∈ taken, c < entry.1) :
    c ≤ reached c taken ∧ ∀ entry ∈ taken, entry.1 ≤ reached c taken := by
  induction taken generalizing c with
  | nil => exact ⟨le_refl c, nofun⟩
  | cons first rest ih =>
    obtain ⟨above, sorted⟩ := List.pairwise_cons.mp ascending
    obtain ⟨start, last⟩ := ih sorted above
    rw [reached_cons]
    refine ⟨(ahead first List.mem_cons_self).le.trans start, ?_⟩
    intro entry inside
    obtain rfl | later := List.mem_cons.mp inside
    · exact start
    · exact last entry later

theorem between_reached (ascending : log.Pairwise fun entry later => entry.1 < later.1)
    (prefixed : taken <+: behind c log) : between c (reached c taken) log = taken := by
  obtain ⟨rest, parts⟩ := prefixed
  have sorted : (behind c log).Pairwise fun entry later => entry.1 < later.1 :=
    ascending.sublist List.filter_sublist
  have ahead : ∀ entry ∈ behind c log, c < entry.1 := fun entry inside => (mem_behind.mp inside).2
  have twice : between c (reached c taken) log =
      (behind c log).filter fun entry => entry.1 ≤ reached c taken := by
    rw [between, behind, List.filter_filter]
    apply List.filter_congr
    intro entry _
    rw [Bool.decide_and, Bool.and_comm]
  rw [twice, ← parts, List.filter_append]
  rw [← parts] at sorted ahead
  obtain ⟨sortedTaken, sortedRest, across⟩ := List.pairwise_append.mp sorted
  obtain ⟨start, last⟩ := le_reached sortedTaken fun entry inside =>
    ahead entry (List.mem_append_left rest inside)
  have all : taken.filter (fun entry => entry.1 ≤ reached c taken) = taken := by
    apply List.filter_eq_self.mpr
    intro entry inside
    exact decide_eq_true (last entry inside)
  have none : rest.filter (fun entry => entry.1 ≤ reached c taken) = [] := by
    apply List.filter_eq_nil_iff.mpr
    intro entry inside
    rw [decide_eq_true_eq, not_le]
    cases final : taken.getLast? with
    | none =>
      rw [List.getLast?_eq_none_iff.mp final]
      exact ahead entry (List.mem_append_right taken inside)
    | some other =>
      rw [reached, final]
      exact across other (List.mem_of_getLast? final) entry inside
  rw [all, none, List.append_nil]

theorem between_append (ascending : log.Pairwise fun entry later => entry.1 < later.1)
    (first : start ≤ c) (second : c ≤ stop) :
    between start stop log = between start c log ++ between c stop log := by
  induction log with
  | nil => rfl
  | cons entry rest ih =>
    obtain ⟨above, sorted⟩ := List.pairwise_cons.mp ascending
    have later := ih sorted
    rw [between, between, between] at later ⊢
    rw [List.filter_cons, List.filter_cons, List.filter_cons, later]
    by_cases near : entry.1 ≤ c
    · have upTo : entry.1 ≤ stop := near.trans second
      have notBehind : ¬c < entry.1 := not_lt.mpr near
      simp only [near, upTo, notBehind, and_true, decide_false]
      split
      · rfl
      · rfl
    · have away : c < entry.1 := not_le.mp near
      have none : rest.filter (fun other => start < other.1 ∧ other.1 ≤ c) = [] := by
        apply List.filter_eq_nil_iff.mpr
        intro other inside
        simp [away.trans (above other inside)]
      have began : start < entry.1 := first.trans_lt away
      simp only [near, away, began, none, and_false, true_and, decide_false, List.nil_append]
      split
      · rfl
      · rfl

end FastS3.Data

namespace FastS3.Data.BTreeMap

variable {κ ν : Type} [LinearOrder κ]

theorem entries_insert_last {m : BTreeMap κ ν} {key : κ} (value : ν)
    (last : ∀ entry ∈ m.entries, entry.1 < key) :
    (m.insert key value).entries = m.entries ++ [(key, value)] := by
  show alterEntries key (fun _ => value) m.entries = m.entries ++ [(key, value)]
  generalize m.entries = entries at last
  induction entries with
  | nil => rfl
  | cons first rest ih =>
    have before : first.1 < key := last first List.mem_cons_self
    rw [alterEntries, if_neg (not_lt.mpr before.le), if_neg (ne_of_gt before),
      ih fun entry inside => last entry (List.mem_cons_of_mem _ inside)]
    rfl

end FastS3.Data.BTreeMap
