import Mathlib.Data.List.Nodup
import Mathlib.Order.Lattice

namespace FastS3.Data

/-! Lists in which the rows with one key stand together, cut into the groups of their keys. -/

variable {α κ : Type} {key : α → κ}

def Contiguous (key : α → κ) (rows : List α) : Prop :=
  ∀ a b c, [a, b, c].Sublist rows → key a = key c → key b = key a

def joinGroup [DecidableEq κ] (key : α → κ) (row : α) : List (κ × List α) → List (κ × List α)
  | [] => [(key row, [row])]
  | (k, group) :: rest =>
    if key row = k then (k, row :: group) :: rest else (key row, [row]) :: (k, group) :: rest

def groupsOf [DecidableEq κ] (key : α → κ) : List α → List (κ × List α)
  | [] => []
  | row :: rest => joinGroup key row (groupsOf key rest)

structure Grouped (key : α → κ) (rows : List α) (groups : List (κ × List α)) : Prop where
  flat : groups.flatMap Prod.snd = rows
  filled : ∀ group ∈ groups, group.2 ≠ []
  keyed : ∀ group ∈ groups, ∀ row ∈ group.2, key row = group.1
  nodup : (groups.map Prod.fst).Nodup

theorem Contiguous.sublist {rows part : List α} (contiguous : Contiguous key rows)
    (sub : part.Sublist rows) : Contiguous key part :=
  fun a b c inside same => contiguous a b c (inside.trans sub) same

theorem contiguous_of_sorted {ω : Type} [LinearOrder ω] (rank : κ → ω)
    (injective : Function.Injective rank) {rows : List α}
    (sorted : rows.Pairwise fun a b => rank (key a) ≤ rank (key b)) : Contiguous key rows := by
  intro a b c inside same
  have ordered := sorted.sublist inside
  simp only [List.pairwise_cons, List.mem_cons, List.not_mem_nil, or_false, forall_eq_or_imp,
    forall_eq] at ordered
  apply injective
  apply le_antisymm
  · rw [same]
    exact ordered.2.1
  · exact ordered.1.1

namespace Grouped

variable {rows : List α} {groups : List (κ × List α)}

theorem tail {group : κ × List α} (grouped : Grouped key rows (group :: groups)) :
    Grouped key (groups.flatMap Prod.snd) groups where
  flat := rfl
  filled := fun other inside => grouped.filled other (List.mem_cons_of_mem _ inside)
  keyed := fun other inside => grouped.keyed other (List.mem_cons_of_mem _ inside)
  nodup := (List.nodup_cons.mp grouped.nodup).2

theorem mem_row (grouped : Grouped key rows groups) {row : α} :
    row ∈ rows ↔ ∃ group ∈ groups, row ∈ group.2 := by
  rw [← grouped.flat, List.mem_flatMap]

theorem mem_key (grouped : Grouped key rows groups) {k : κ} :
    k ∈ groups.map Prod.fst ↔ ∃ row ∈ rows, key row = k := by
  rw [List.mem_map]
  constructor
  · rintro ⟨group, inside, rfl⟩
    obtain ⟨row, rowIn⟩ := List.exists_mem_of_ne_nil _ (grouped.filled group inside)
    exact ⟨row, grouped.mem_row.mpr ⟨group, inside, rowIn⟩, grouped.keyed group inside row rowIn⟩
  · rintro ⟨row, inside, rfl⟩
    obtain ⟨group, groupIn, rowIn⟩ := grouped.mem_row.mp inside
    exact ⟨group, groupIn, (grouped.keyed group groupIn row rowIn).symm⟩

theorem filter (grouped : Grouped key rows groups) (p : κ → Bool) :
    Grouped key (rows.filter fun row => p (key row)) (groups.filter fun group => p group.1) where
  flat := by
    rw [← grouped.flat]
    have keyed := grouped.keyed
    clear grouped
    induction groups with
    | nil => rfl
    | cons group groups ih =>
      obtain ⟨here, later⟩ := List.forall_mem_cons.mp keyed
      have each : ∀ row ∈ group.2, p (key row) = p group.1 := by
        intro row inside
        rw [here row inside]
      rw [List.flatMap_cons, List.filter_append, List.filter_congr each, ← ih later]
      rw [List.filter_cons]
      cases kept : p group.1 with
      | true =>
        rw [List.filter_true, if_pos rfl, List.flatMap_cons]
      | false =>
        rw [List.filter_false, List.nil_append, if_neg Bool.false_ne_true]
  filled := fun group inside => grouped.filled group (List.mem_filter.mp inside).1
  keyed := fun group inside => grouped.keyed group (List.mem_filter.mp inside).1
  nodup := grouped.nodup.sublist (List.filter_sublist.map _)

theorem eq_filter [DecidableEq κ] (grouped : Grouped key rows groups) {group : κ × List α}
    (inside : group ∈ groups) : group.2 = rows.filter fun row => key row = group.1 := by
  have only : (groups.filter fun other => decide (other.1 = group.1)) = [group] := by
    have nodup := grouped.nodup
    clear grouped
    induction groups with
    | nil => exact absurd inside List.not_mem_nil
    | cons first groups ih =>
      obtain ⟨fresh, nodup⟩ := List.nodup_cons.mp nodup
      rcases List.mem_cons.mp inside with rfl | later
      · rw [List.filter_cons_of_pos (by simp), List.filter_eq_nil_iff.mpr]
        intro other otherIn same
        exact fresh (of_decide_eq_true same ▸ List.mem_map_of_mem otherIn)
      · have differs : first.1 ≠ group.1 := by
          intro same
          exact fresh (same ▸ List.mem_map_of_mem later)
        rw [List.filter_cons_of_neg (by simpa using differs), ih later nodup]
  have kept := (grouped.filter fun k => decide (k = group.1)).flat
  rw [only, List.flatMap_singleton] at kept
  exact kept

theorem pairwise (grouped : Grouped key rows groups) {R : α → α → Prop} (related : rows.Pairwise R) :
    groups.Pairwise fun first second => ∀ a ∈ first.2, ∀ b ∈ second.2, R a b := by
  rw [← grouped.flat, List.pairwise_flatMap] at related
  exact related.2

theorem exists_row (grouped : Grouped key rows groups) {group : κ × List α}
    (inside : group ∈ groups) : ∃ row ∈ group.2, row ∈ rows ∧ key row = group.1 := by
  obtain ⟨row, member⟩ := List.exists_mem_of_ne_nil _ (grouped.filled group inside)
  exact ⟨row, member, grouped.mem_row.mpr ⟨group, inside, member⟩,
    grouped.keyed group inside row member⟩

end Grouped

theorem filter_flatMap_eq {β : Type} {p : α → Bool} {f h : α → List β} {q : β → Bool}
    {items : List α} (each : ∀ a ∈ items, (f a).filter q = if p a then h a else []) :
    (items.flatMap f).filter q = (items.filter p).flatMap h := by
  induction items with
  | nil => rfl
  | cons a items ih =>
    obtain ⟨here, later⟩ := List.forall_mem_cons.mp each
    rw [List.flatMap_cons, List.filter_append, here, ih later, List.filter_cons]
    cases p a with
    | true => rfl
    | false => rfl

theorem flatMap_eq_append_cons {β : Type} {f : α → List β} {items : List α} {before rest : List β}
    {x : β} (split : items.flatMap f = before ++ x :: rest) : ∃ init a tail front back,
      items = init ++ a :: tail ∧ f a = front ++ x :: back ∧ before = init.flatMap f ++ front := by
  induction items generalizing before with
  | nil =>
    rw [List.flatMap_nil] at split
    exact absurd split.symm (List.append_ne_nil_of_right_ne_nil _ (List.cons_ne_nil _ _))
  | cons a items ih =>
    rw [List.flatMap_cons] at split
    rcases List.append_eq_append_iff.mp split with ⟨later, rfl, rest'⟩ | ⟨part, cut, rest'⟩
    · obtain ⟨init, b, tail, front, back, rfl, here, rfl⟩ := ih rest'
      exact ⟨a :: init, b, tail, front, back, rfl, here, by
        rw [List.flatMap_cons, List.append_assoc]⟩
    · cases part with
      | nil =>
        have later : items.flatMap f = [] ++ x :: rest := rest'.symm
        obtain ⟨init, b, tail, front, back, rfl, here, empty⟩ := ih later
        rw [List.append_nil] at cut
        exact ⟨a :: init, b, tail, front, back, rfl, here, by
          rw [List.flatMap_cons, List.append_assoc, ← empty, List.append_nil, cut]⟩
      | cons y part =>
        obtain ⟨rfl, _⟩ := List.cons.inj rest'
        exact ⟨[], a, items, before, part, rfl, cut, rfl⟩

theorem joinGroup_flat [DecidableEq κ] (row : α) (groups : List (κ × List α)) :
    (joinGroup key row groups).flatMap Prod.snd = row :: groups.flatMap Prod.snd := by
  cases groups with
  | nil => rfl
  | cons group groups =>
    simp only [joinGroup]
    split
    · rfl
    · rfl

theorem groupsOf_grouped [DecidableEq κ] {rows : List α} (contiguous : Contiguous key rows) :
    Grouped key rows (groupsOf key rows) := by
  induction rows with
  | nil => exact ⟨rfl, by simp [groupsOf], by simp [groupsOf], List.nodup_nil⟩
  | cons row rows ih =>
    have grouped := ih (contiguous.sublist (List.sublist_cons_self row rows))
    have flat : (joinGroup key row (groupsOf key rows)).flatMap Prod.snd = _ :=
      joinGroup_flat row (groupsOf key rows)
    rw [grouped.flat] at flat
    cases found : groupsOf key rows with
    | nil =>
      rw [groupsOf, found]
      rw [found] at flat
      exact ⟨flat, by simp [joinGroup], by simp [joinGroup], by simp [joinGroup]⟩
    | cons group groups =>
      obtain ⟨k, members⟩ := group
      rw [groupsOf, found]
      rw [found] at grouped flat
      simp only [joinGroup] at flat ⊢
      have nodup := grouped.nodup
      have filled := grouped.filled
      have keyed := grouped.keyed
      split
      · next same =>
          rw [if_pos same] at flat
          refine ⟨flat, ?_, ?_, nodup⟩
          · intro other inside
            rcases List.mem_cons.mp inside with rfl | later
            · exact List.cons_ne_nil _ _
            · exact filled other (List.mem_cons_of_mem _ later)
          · intro other inside a member
            rcases List.mem_cons.mp inside with rfl | later
            · rcases List.mem_cons.mp member with rfl | old
              · exact same
              · exact keyed _ List.mem_cons_self a old
            · exact keyed other (List.mem_cons_of_mem _ later) a member
      · next differs =>
          rw [if_neg differs] at flat
          have fresh : key row ∉ ((k, members) :: groups).map Prod.fst := by
            rw [grouped.mem_key]
            rintro ⟨c, later, same⟩
            -- the first row behind this one would stand between two rows of one key
            obtain ⟨b, others, cut⟩ := List.exists_cons_of_ne_nil (filled _ List.mem_cons_self)
            have first : key b = k := keyed _ List.mem_cons_self b (cut ▸ List.mem_cons_self)
            have shape : rows = b :: (others ++ groups.flatMap Prod.snd) := by
              rw [← grouped.flat, List.flatMap_cons]
              exact congrArg (· ++ groups.flatMap Prod.snd) cut
            have between : key b = key row := by
              rw [shape] at later
              rcases List.mem_cons.mp later with rfl | behind
              · exact same
              · apply contiguous row b c _ same.symm
                rw [shape]
                exact (((List.singleton_sublist.mpr behind).cons_cons b).cons_cons row)
            exact differs (between.symm.trans first)
          refine ⟨flat, ?_, ?_, List.nodup_cons.mpr ⟨fresh, nodup⟩⟩
          · intro other inside
            rcases List.mem_cons.mp inside with rfl | later
            · exact List.cons_ne_nil _ _
            · exact filled other later
          · intro other inside a member
            rcases List.mem_cons.mp inside with rfl | later
            · rw [List.mem_singleton.mp member]
            · exact keyed other later a member

end FastS3.Data
