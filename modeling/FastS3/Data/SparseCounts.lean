import Mathlib.Logic.Function.Iterate

namespace FastS3.Data.SparseCounts

/-! Counts in a sparse table, where a missing entry stands for one.

An item with one user has no entry; the second user creates it.  A user who
leaves lowers the entry, and the last one removes it.  The lemmas below follow a
log of such steps and ask when a given way of undoing the log restores the count.
-/

inductive Step where
  | share
  | release
deriving Repr, DecidableEq

def share (entry : Option Nat) : Option Nat :=
  some (entry.getD 1 + 1)

def release : Option Nat → Option Nat
  | some count => if count > 1 then some (count - 1) else none
  | none => none

def undoShare : Option Nat → Option Nat
  | some count => if count > 2 then some (count - 1) else none
  | none => none

def undoRelease : Option Nat → Option Nat
  | some count => some (count + 1)
  | none => some 1

def apply (entry : Option Nat) : Step → Option Nat
  | .share => share entry
  | .release => release entry

def run (entry : Option Nat) (steps : List Step) : Option Nat :=
  steps.foldl apply entry

def tableReleases : Option Nat → List Step → Nat
  | _, [] => 0
  | entry, .share :: rest => tableReleases (share entry) rest
  | entry, .release :: rest =>
    tableReleases (release entry) rest + if entry.isSome then 1 else 0

def shares (steps : List Step) : Nat :=
  steps.count .share

def undo (shared released : Nat) (entry : Option Nat) : Option Nat :=
  undoRelease^[released] (undoShare^[shared] entry)

theorem run_append (entry : Option Nat) (left right : List Step) :
    run entry (left ++ right) = run (run entry left) right :=
  List.foldl_append

theorem tableReleases_append (entry : Option Nat) (left right : List Step) :
    tableReleases entry (left ++ right) =
      tableReleases entry left + tableReleases (run entry left) right := by
  induction left generalizing entry with
  | nil => simp [tableReleases, run]
  | cons step rest ih =>
    cases step with
    | share => simpa [tableReleases, run, apply] using ih (share entry)
    | release =>
      have later := ih (release entry)
      simp only [List.cons_append, tableReleases, later, run, List.foldl_cons, apply]
      omega

def Positive (entry : Option Nat) : Prop :=
  ∀ count, entry = some count → 1 ≤ count

/-- The log so far, as seen from the first entry: `removals` entries were removed,
each of which hides one release from the count. -/
structure Follows (first entry : Option Nat) (shared released removals : Nat) : Prop where
  balance : entry.getD 1 + released = first.getD 1 + shared + removals
  positive : Positive entry
  paid : 1 ≤ removals → first.getD 1 + 2 * (removals - 1) ≤ released
  absent : entry = none → removals ≤ shared + 1
  present : entry ≠ none → 1 ≤ removals → removals ≤ shared
  idle : shared = 0 → removals ≤ 1 ∧ (removals = 1 → entry = none) ∧
    (removals = 0 → first ≠ none → entry ≠ none)

theorem Follows.start {first : Option Nat} (positive : Positive first) :
    Follows first first 0 0 0 := by
  refine ⟨by omega, positive, by omega, by omega, by omega, ?_⟩
  intro _
  exact ⟨by omega, by omega, fun _ there => there⟩

variable {released removals shared : Nat} {first : Option Nat}

theorem Follows.share {entry : Option Nat}
    (follows : Follows first entry shared released removals) :
    Follows first (share entry) (shared + 1) released removals := by
  refine ⟨?_, ?_, follows.paid, by simp [SparseCounts.share], ?_, by omega⟩
  · have balance := follows.balance
    simp only [SparseCounts.share, Option.getD_some]
    omega
  · intro count same
    simp only [SparseCounts.share, Option.some.injEq] at same
    omega
  · intro _ removed
    cases there : entry with
    | none =>
      have := follows.absent there
      omega
    | some count =>
      have := follows.present (by simp [there]) removed
      omega

theorem Follows.release_missing (follows : Follows first none shared released removals) :
    Follows first (release none) shared released removals :=
  follows

theorem Follows.release_found {count : Nat}
    (follows : Follows first (some count) shared released removals) :
    ∃ removals', Follows first (release (some count)) shared (released + 1) removals' := by
  have balance := follows.balance
  have atLeast := follows.positive count rfl
  simp only [Option.getD_some] at balance
  by_cases many : count > 1
  · refine ⟨removals, ?_, ?_, ?_, ?_, ?_, ?_⟩
    · simp only [release, if_pos many, Option.getD_some]
      omega
    · intro other same
      simp only [release, if_pos many, Option.some.injEq] at same
      omega
    · intro removed
      have := follows.paid removed
      omega
    · simp [release, if_pos many]
    · intro _
      exact follows.present (by simp)
    · intro none
      obtain ⟨few, gone, _⟩ := follows.idle none
      refine ⟨few, ?_, ?_⟩
      · intro one
        have := gone one
        cases this
      · simp [release, if_pos many]
  · have last : count = 1 := by omega
    subst last
    refine ⟨removals + 1, ?_, ?_, ?_, ?_, ?_, ?_⟩
    · simp only [release, if_neg many, Option.getD_none]
      omega
    · simp [release, Positive]
    · intro _
      by_cases removed : 1 ≤ removals
      · have := follows.present (by simp) removed
        omega
      · omega
    · intro _
      by_cases removed : 1 ≤ removals
      · have := follows.present (by simp) removed
        omega
      · omega
    · simp [release]
    · intro none
      obtain ⟨few, gone, _⟩ := follows.idle none
      have notGone : removals ≠ 1 := by
        intro one
        have := gone one
        cases this
      exact ⟨by omega, fun _ => by simp [release], by omega⟩

theorem Follows.run {entry : Option Nat} (follows : Follows first entry shared released removals)
    (steps : List Step) :
    ∃ removals', Follows first (run entry steps) (shared + shares steps)
      (released + tableReleases entry steps) removals' := by
  induction steps generalizing entry shared released removals with
  | nil => exact ⟨removals, by simpa [SparseCounts.run, shares, tableReleases] using follows⟩
  | cons step rest ih =>
    cases step with
    | share =>
      obtain ⟨removals', later⟩ := ih follows.share
      refine ⟨removals', ?_⟩
      simpa [SparseCounts.run, apply, shares, tableReleases, Nat.add_assoc, Nat.add_comm 1]
        using later
    | release =>
      cases there : entry with
      | none =>
        subst there
        obtain ⟨removals', later⟩ := ih follows.release_missing
        refine ⟨removals', ?_⟩
        simpa [SparseCounts.run, apply, shares, tableReleases] using later
      | some count =>
        subst there
        obtain ⟨_, found⟩ := follows.release_found
        obtain ⟨removals', later⟩ := ih found
        refine ⟨removals', ?_⟩
        simpa [SparseCounts.run, apply, shares, tableReleases, Nat.add_assoc,
          Nat.add_comm 1] using later

theorem iterate_undoShare (times : Nat) (entry : Option Nat) :
    undoShare^[times + 1] entry =
      if times + 3 ≤ entry.getD 1 then some (entry.getD 1 - (times + 1)) else none := by
  induction times generalizing entry with
  | zero =>
    cases entry with
    | none => simp [undoShare]
    | some count =>
      by_cases many : count > 2
      · simp [undoShare, many, Nat.succ_le_of_lt many]
      · simp [undoShare, many, Nat.lt_succ_of_le (Nat.le_of_not_gt many)]
  | succ times ih =>
    rw [Function.iterate_succ_apply, ih]
    cases entry with
    | none => simp [undoShare]
    | some count =>
      by_cases many : count > 2
      · simp only [undoShare, if_pos many, Option.getD_some]
        by_cases enough : times + 3 ≤ count - 1
        · rw [if_pos enough, if_pos (by omega)]
          congr 1
          omega
        · rw [if_neg enough, if_neg (by omega)]
      · simp only [undoShare, if_neg many, Option.getD_none, Option.getD_some]
        rw [if_neg (by omega), if_neg (by omega)]

theorem iterate_undoRelease_some (times count : Nat) :
    undoRelease^[times] (some count) = some (count + times) := by
  induction times generalizing count with
  | zero => rfl
  | succ times ih =>
    rw [Function.iterate_succ_apply, undoRelease, ih]
    congr 1
    omega

theorem iterate_undoRelease_none (times : Nat) :
    (undoRelease^[times] none).getD 1 = max times 1 := by
  cases times with
  | zero => rfl
  | succ times =>
    rw [Function.iterate_succ_apply, undoRelease, iterate_undoRelease_some]
    simp only [Option.getD_some]
    omega

/-- Undoing a log restores the count exactly in four cases: nothing was shared,
no release found an entry, as many did as there were users at the start, or at
least two users of the start were left alone. -/
theorem undo_restores_iff (positive : Positive first) (steps : List Step) :
    (undo (shares steps) (tableReleases first steps) (run first steps)).getD 1 = first.getD 1 ↔
      shares steps = 0 ∨ tableReleases first steps = 0 ∨
        tableReleases first steps = first.getD 1 ∨
        tableReleases first steps + 2 ≤ first.getD 1 := by
  obtain ⟨removals, follows⟩ := (Follows.start positive).run steps
  simp only [Nat.zero_add] at follows
  revert follows
  generalize run first steps = entry
  generalize tableReleases first steps = released
  generalize shares steps = shared
  intro follows
  have balance := follows.balance
  have firstPositive : 1 ≤ first.getD 1 := by
    cases there : first with
    | none => simp
    | some count => simpa using positive count there
  unfold undo
  cases shared with
  | zero =>
    obtain ⟨few, gone, kept⟩ := follows.idle rfl
    simp only [Function.iterate_zero, id_eq, true_or, iff_true]
    cases there : entry with
    | none =>
      rw [iterate_undoRelease_none]
      simp only [there, Option.getD_none] at balance
      by_cases removed : removals = 1
      · omega
      · have missing : first = none := by
          by_contra entered
          exact kept (by omega) entered there
        simp only [missing, Option.getD_none] at balance ⊢
        omega
    | some count =>
      rw [iterate_undoRelease_some]
      simp only [there, Option.getD_some] at balance ⊢
      have notOne : removals ≠ 1 := by
        intro one
        have := gone one
        simp [there] at this
      omega
  | succ shared =>
    have paid := follows.paid
    rw [iterate_undoShare]
    by_cases enough : shared + 3 ≤ entry.getD 1
    · rw [if_pos enough, iterate_undoRelease_some]
      simp only [Option.getD_some, Nat.add_eq_zero_iff, Nat.one_ne_zero, and_false, false_or]
      by_cases removed : 1 ≤ removals
      · have := paid removed
        omega
      · omega
    · rw [if_neg enough, iterate_undoRelease_none]
      simp only [Nat.add_eq_zero_iff, Nat.one_ne_zero, and_false, false_or]
      by_cases removed : 1 ≤ removals
      · have := paid removed
        omega
      · omega

end FastS3.Data.SparseCounts
