import Mathlib.Data.List.Induction

namespace FastS3.Data

/-! A cell under a sequence of steps that each write it or leave it alone.

The last write decides, so a stretch of the sequence may be applied again. -/

variable {β : Type}

def overwrite (writes : List (Option β)) (start : β) : β :=
  writes.foldl (fun now write => write.getD now) start

def lastWrite (writes : List (Option β)) : Option β :=
  writes.foldl (fun last write => write.or last) none

theorem overwrite_append (left right : List (Option β)) (start : β) :
    overwrite (left ++ right) start = overwrite right (overwrite left start) :=
  List.foldl_append

theorem overwrite_eq_lastWrite (writes : List (Option β)) (start : β) :
    overwrite writes start = (lastWrite writes).getD start := by
  induction writes using List.reverseRecOn with
  | nil => rfl
  | append_singleton writes write ih =>
    have last : lastWrite (writes ++ [write]) = write.or (lastWrite writes) := List.foldl_append
    rw [overwrite_append, ih, last]
    cases write with
    | none => rfl
    | some value => rfl

theorem overwrite_twice (writes : List (Option β)) (start : β) :
    overwrite writes (overwrite writes start) = overwrite writes start := by
  simp only [overwrite_eq_lastWrite]
  cases lastWrite writes with
  | none => rfl
  | some value => rfl

theorem overwrite_replay {writes : List (Option β)} {i k : Nat} (order : i ≤ k) (start : β) :
    overwrite (writes.drop i) (overwrite (writes.take k) start) = overwrite writes start := by
  obtain ⟨again, rfl⟩ := Nat.exists_eq_add_of_le order
  have suffix : writes.drop i = (writes.drop i).take again ++ writes.drop (i + again) := by
    rw [← List.drop_drop, List.take_append_drop]
  have taken : writes.take (i + again) = writes.take i ++ (writes.drop i).take again := List.take_add
  calc overwrite (writes.drop i) (overwrite (writes.take (i + again)) start)
      = overwrite (writes.drop (i + again)) (overwrite ((writes.drop i).take again)
          (overwrite (writes.take (i + again)) start)) := by
        conv_lhs => rw [suffix]
        rw [overwrite_append]
    _ = overwrite (writes.drop (i + again)) (overwrite (writes.take (i + again)) start) := by
        rw [taken, overwrite_append, overwrite_twice]
    _ = overwrite writes start := by rw [← overwrite_append, List.take_append_drop]

end FastS3.Data
