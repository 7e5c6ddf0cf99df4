import Mathlib.Data.List.Perm.Basic
import Mathlib.Order.Lattice

namespace FastS3.Data

/-! Finite maps that are iterated in the order of their keys. -/

structure BTreeMap (κ ν : Type) [LinearOrder κ] where
  entries : List (κ × ν)
  sorted : entries.Pairwise fun a b => a.1 < b.1

namespace BTreeMap

variable {κ ν : Type} [LinearOrder κ]

/-- The entry of `key` becomes `update` of its value, at its place in the order. -/
def alterEntries (key : κ) (update : Option ν → ν) : List (κ × ν) → List (κ × ν)
  | [] => [(key, update none)]
  | entry :: rest =>
    if key < entry.1 then (key, update none) :: entry :: rest
    else if key = entry.1 then (key, update (some entry.2)) :: rest
    else entry :: alterEntries key update rest

def findEntry (key : κ) : List (κ × ν) → Option ν
  | [] => none
  | entry :: rest => if key = entry.1 then some entry.2 else findEntry key rest

variable {key : κ} {entries : List (κ × ν)} {value : ν} {m : BTreeMap κ ν}

theorem mem_alterEntries {update : Option ν → ν} {entry : κ × ν}
    (member : entry ∈ alterEntries key update entries) : entry.1 = key ∨ entry ∈ entries := by
  induction entries with
  | nil =>
    rw [alterEntries, List.mem_singleton] at member
    exact .inl (by rw [member])
  | cons first rest ih =>
    unfold alterEntries at member
    split at member
    · rcases List.mem_cons.mp member with rfl | old
      · exact .inl rfl
      · exact .inr old
    · split at member
      · rcases List.mem_cons.mp member with rfl | old
        · exact .inl rfl
        · exact .inr (List.mem_cons_of_mem _ old)
      · rcases List.mem_cons.mp member with rfl | later
        · exact .inr List.mem_cons_self
        · rcases ih later with new | old
          · exact .inl new
          · exact .inr (List.mem_cons_of_mem _ old)

theorem alterEntries_sorted (key : κ) (update : Option ν → ν)
    (sorted : entries.Pairwise fun a b => a.1 < b.1) :
    (alterEntries key update entries).Pairwise fun a b => a.1 < b.1 := by
  induction entries with
  | nil => simp [alterEntries]
  | cons first rest ih =>
    obtain ⟨below, ordered⟩ := List.pairwise_cons.mp sorted
    unfold alterEntries
    split
    · next before =>
        refine List.pairwise_cons.mpr ⟨?_, sorted⟩
        intro other member
        rcases List.mem_cons.mp member with rfl | later
        · exact before
        · exact lt_trans before (below other later)
    · next notBefore =>
        split
        · next same =>
            refine List.pairwise_cons.mpr ⟨?_, ordered⟩
            intro other member
            rw [same]
            exact below other member
        · next different =>
            refine List.pairwise_cons.mpr ⟨?_, ih ordered⟩
            intro other member
            rcases mem_alterEntries member with new | old
            · rw [new]
              exact lt_of_le_of_ne (not_lt.mp notBefore) (Ne.symm different)
            · exact below other old

theorem findEntry_eq_none (absent : ∀ entry ∈ entries, key ≠ entry.1) :
    findEntry key entries = none := by
  induction entries with
  | nil => rfl
  | cons first rest ih =>
    rw [findEntry, if_neg (absent first List.mem_cons_self)]
    exact ih fun entry member => absent entry (List.mem_cons_of_mem _ member)

theorem findEntry_alterEntries (key other : κ) (update : Option ν → ν)
    (sorted : entries.Pairwise fun a b => a.1 < b.1) :
    findEntry other (alterEntries key update entries) =
      if other = key then some (update (findEntry key entries)) else findEntry other entries := by
  induction entries with
  | nil => simp [alterEntries, findEntry]
  | cons first rest ih =>
    obtain ⟨below, ordered⟩ := List.pairwise_cons.mp sorted
    unfold alterEntries
    split
    · next before =>
        have absent : findEntry key (first :: rest) = none := by
          apply findEntry_eq_none
          intro entry member
          rcases List.mem_cons.mp member with rfl | later
          · exact ne_of_lt before
          · exact ne_of_lt (lt_trans before (below entry later))
        rw [absent]
        rfl
    · split
      · next same =>
          subst same
          by_cases found : other = first.1
          · simp [findEntry, found]
          · simp [findEntry, found]
      · next different =>
          rw [findEntry, ih ordered]
          by_cases found : other = first.1
          · rw [if_pos found, if_neg (by rw [found]; exact Ne.symm different), findEntry, if_pos found]
          · rw [if_neg found, findEntry, if_neg different]
            conv_rhs => rw [findEntry, if_neg found]

theorem findEntry_eq_some_iff (sorted : entries.Pairwise fun a b => a.1 < b.1) :
    findEntry key entries = some value ↔ (key, value) ∈ entries := by
  induction entries with
  | nil => simp [findEntry]
  | cons first rest ih =>
    obtain ⟨below, ordered⟩ := List.pairwise_cons.mp sorted
    unfold findEntry
    split
    · next same =>
        constructor
        · intro found
          cases found
          rw [same]
          exact List.mem_cons_self
        · intro member
          rcases List.mem_cons.mp member with rfl | later
          · rfl
          · exact absurd same (ne_of_gt (below _ later))
    · next different =>
        rw [ih ordered, List.mem_cons]
        constructor
        · exact .inr
        · rintro (rfl | later)
          · exact absurd rfl different
          · exact later

def empty : BTreeMap κ ν :=
  ⟨[], List.Pairwise.nil⟩

def get? (m : BTreeMap κ ν) (key : κ) : Option ν :=
  findEntry key m.entries

/-- `entry(key)`, with the value there replaced. -/
def alter (m : BTreeMap κ ν) (key : κ) (update : Option ν → ν) : BTreeMap κ ν :=
  ⟨alterEntries key update m.entries, alterEntries_sorted key update m.sorted⟩

def insert (m : BTreeMap κ ν) (key : κ) (value : ν) : BTreeMap κ ν :=
  m.alter key fun _ => value

def erase (m : BTreeMap κ ν) (key : κ) : BTreeMap κ ν :=
  ⟨m.entries.filter fun entry => entry.1 ≠ key, m.sorted.filter _⟩

def dropFirst (m : BTreeMap κ ν) (count : Nat) : BTreeMap κ ν :=
  ⟨m.entries.drop count, m.sorted.sublist (List.drop_sublist count m.entries)⟩

/-- `values`, in the order of the keys. -/
def values (m : BTreeMap κ ν) : List ν :=
  m.entries.map Prod.snd

@[simp] theorem get?_empty (key : κ) : (empty : BTreeMap κ ν).get? key = none := rfl

theorem get?_alter (m : BTreeMap κ ν) (key other : κ) (update : Option ν → ν) :
    (m.alter key update).get? other = if other = key then some (update (m.get? key)) else m.get? other :=
  findEntry_alterEntries key other update m.sorted

theorem get?_insert (m : BTreeMap κ ν) (key other : κ) (value : ν) :
    (m.insert key value).get? other = if other = key then some value else m.get? other :=
  m.get?_alter key other fun _ => value

theorem get?_eq_some_iff : m.get? key = some value ↔ (key, value) ∈ m.entries :=
  findEntry_eq_some_iff m.sorted

theorem get?_erase (m : BTreeMap κ ν) (key other : κ) :
    (m.erase key).get? other = if other = key then none else m.get? other := by
  apply Option.ext
  intro value
  rw [get?_eq_some_iff, erase, List.mem_filter, decide_eq_true_eq, ← get?_eq_some_iff]
  split
  · next same =>
      constructor
      · intro held
        exact absurd same held.2
      · intro none
        cases none
  · next different => exact and_iff_left different

theorem nodup_entries (m : BTreeMap κ ν) : m.entries.Nodup := by
  apply m.sorted.imp
  intro a b below equal
  rw [equal] at below
  exact lt_irrefl _ below

theorem ext_get? {n : BTreeMap κ ν} (same : ∀ key, m.get? key = n.get? key) : m = n := by
  have perm : m.entries.Perm n.entries := by
    rw [List.perm_ext_iff_of_nodup m.nodup_entries n.nodup_entries]
    intro entry
    rw [← get?_eq_some_iff, ← get?_eq_some_iff, same]
  have equal : m.entries = n.entries := by
    apply perm.eq_of_pairwise _ m.sorted n.sorted
    intro a b _ _ below above
    exact absurd (lt_trans below above) (lt_irrefl _)
  cases m
  cases n
  cases equal
  rfl

theorem insert_of_get? (held : m.get? key = some value) : m.insert key value = m := by
  apply ext_get?
  intro other
  rw [insert, get?_alter]
  split
  · next same => rw [same, held]
  · rfl

theorem insert_eq_self_iff : m.insert key value = m ↔ m.get? key = some value := by
  constructor
  · intro same
    have inserted := m.get?_insert key key value
    rwa [same, if_pos rfl] at inserted
  · exact insert_of_get?

/-- A key that is inserted and erased again leaves the map as it was, unless the key was there. -/
theorem erase_insert_eq_self_iff : (m.insert key value).erase key = m ↔ m.get? key = none := by
  constructor
  · intro same
    have erased := (m.insert key value).get?_erase key key
    rwa [same, if_pos rfl] at erased
  · intro absent
    apply ext_get?
    intro other
    rw [get?_erase, get?_insert]
    split
    · next here => rw [here, absent]
    · rfl

theorem entries_perm (held : m.get? key = some value) :
    m.entries.Perm ((key, value) :: (m.erase key).entries) := by
  have fresh : (key, value) ∉ (m.erase key).entries := by
    rw [← get?_eq_some_iff, get?_erase, if_pos rfl]
    exact fun none => nomatch none
  rw [List.perm_ext_iff_of_nodup m.nodup_entries (List.nodup_cons.mpr ⟨fresh, nodup_entries _⟩)]
  intro entry
  rw [List.mem_cons, ← get?_eq_some_iff, ← get?_eq_some_iff, get?_erase]
  constructor
  · intro found
    by_cases same : entry.1 = key
    · left
      rw [same, held] at found
      exact Prod.ext same (Option.some.inj found).symm
    · right
      rwa [if_neg same]
  · intro found
    rcases found with rfl | other
    · exact held
    · split at other
      · cases other
      · exact other

theorem erase_of_get? (absent : m.get? key = none) : m.erase key = m := by
  apply ext_get?
  intro other
  rw [get?_erase]
  split
  · next here => rw [here, absent]
  · rfl

theorem erase_insert (m : BTreeMap κ ν) (key : κ) (value : ν) :
    (m.insert key value).erase key = m.erase key := by
  apply ext_get?
  intro other
  rw [get?_erase, get?_erase, get?_insert]
  split
  · rfl
  · rfl

theorem insert_perm (m : BTreeMap κ ν) (key : κ) (value : ν) :
    (m.insert key value).entries.Perm ((key, value) :: (m.erase key).entries) := by
  have held : (m.insert key value).get? key = some value := by
    rw [get?_insert, if_pos rfl]
  have perm := entries_perm held
  rwa [erase_insert] at perm

theorem keys_eq {μ : Type} {n : BTreeMap κ μ}
    (same : ∀ key, (m.get? key).isSome = (n.get? key).isSome) :
    m.entries.map Prod.fst = n.entries.map Prod.fst := by
  have sortedKeys : (m.entries.map Prod.fst).Pairwise (· < ·) := List.pairwise_map.mpr m.sorted
  have sortedKeys' : (n.entries.map Prod.fst).Pairwise (· < ·) := List.pairwise_map.mpr n.sorted
  have member : ∀ {ρ : Type} (map : BTreeMap κ ρ) (key : κ),
      key ∈ map.entries.map Prod.fst ↔ (map.get? key).isSome = true := by
    intro ρ map key
    rw [List.mem_map, Option.isSome_iff_exists]
    constructor
    · intro found
      obtain ⟨entry, inside, rfl⟩ := found
      exact ⟨entry.2, get?_eq_some_iff.mpr inside⟩
    · intro found
      obtain ⟨value, held⟩ := found
      exact ⟨(key, value), get?_eq_some_iff.mp held, rfl⟩
  have perm : (m.entries.map Prod.fst).Perm (n.entries.map Prod.fst) := by
    rw [List.perm_ext_iff_of_nodup (sortedKeys.imp ne_of_lt) (sortedKeys'.imp ne_of_lt)]
    intro key
    rw [member, member, same]
  apply perm.eq_of_pairwise _ sortedKeys sortedKeys'
  intro a b _ _ below above
  exact absurd (lt_trans below above) (lt_irrefl _)

end BTreeMap

end FastS3.Data
