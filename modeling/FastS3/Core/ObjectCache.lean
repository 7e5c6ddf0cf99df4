import FastS3.Core.Bytes
import FastS3.Data.BTreeMap
import Mathlib.Data.List.Nodup
import Mathlib.Data.String.Basic

namespace FastS3.Core

open Data

/-! The cache of hot objects: slots with an index over their keys, in the order of their use.

The metrics are left out.
-/

structure CacheConfig where
  enabled : Bool
  maxBytes : Nat
  maxObjectSize : Nat
deriving Repr, DecidableEq

structure CacheSlot where
  key : String
  bytes : Bytes
deriving Repr, DecidableEq

/-- `Inner`: the slot to take next and the least recently used one come first. -/
structure ObjectCache where
  keys : BTreeMap String Nat
  order : List Nat
  slots : List (Option CacheSlot)
  free : List Nat
  totalBytes : Nat

def CacheConfig.eligible (config : CacheConfig) (size : Nat) : Bool :=
  config.enabled && 0 < size && size ≤ config.maxObjectSize

namespace ObjectCache

def capacity (config : CacheConfig) : Nat :=
  min (max (config.maxBytes / 4096) 16) (2 ^ 20)

def new (config : CacheConfig) : ObjectCache where
  keys := .empty
  order := []
  slots := List.replicate (capacity config) none
  free := (List.range (capacity config)).reverse
  totalBytes := 0

variable (cache : ObjectCache)

def slot (idx : Nat) : Option CacheSlot :=
  cache.slots[idx]?.join

def touch (idx : Nat) : ObjectCache :=
  { cache with order := cache.order.erase idx ++ [idx] }

def get (key : String) : Option Bytes × ObjectCache :=
  match cache.keys.get? key with
  | none => (none, cache)
  | some idx => ((cache.slot idx).map CacheSlot.bytes, cache.touch idx)

def evict (victim : Nat) : ObjectCache :=
  match cache.slot victim with
  | none => cache
  | some held =>
    { cache with
      keys := cache.keys.erase held.key
      slots := cache.slots.set victim none
      totalBytes := cache.totalBytes - held.bytes.length }

/-- A free slot, or that of the least recently used entry; `expect` asks for one of them. -/
def takeSlot : Option (Nat × ObjectCache) :=
  match cache.free with
  | idx :: rest => some (idx, { cache with free := rest })
  | [] =>
    match cache.order with
    | [] => none
    | victim :: rest => some (victim, evict { cache with order := rest } victim)

def shrink (maxBytes : Nat) : List Nat → ObjectCache → ObjectCache
  | [], cache => cache
  | victim :: rest, cache =>
    if cache.totalBytes > maxBytes then
      let cache := evict { cache with order := rest } victim
      shrink maxBytes rest { cache with free := victim :: cache.free }
    else cache

def fill (idx : Nat) (entry : CacheSlot) : ObjectCache :=
  { cache with
    keys := cache.keys.insert entry.key idx
    order := cache.order ++ [idx]
    slots := cache.slots.set idx (some entry)
    totalBytes := cache.totalBytes + entry.bytes.length }

def renew (idx : Nat) (held entry : CacheSlot) : ObjectCache :=
  touch { cache with
    slots := cache.slots.set idx (some entry)
    totalBytes := cache.totalBytes - held.bytes.length + entry.bytes.length } idx

def insertNew (config : CacheConfig) (entry : CacheSlot) : Option ObjectCache :=
  cache.takeSlot.map fun taken =>
    let filled := taken.2.fill taken.1 entry
    shrink config.maxBytes filled.order filled

/-- `insert`; without a slot to take it would panic. -/
def insert (config : CacheConfig) (key : String) (bytes : Bytes) : Option ObjectCache :=
  if bytes = [] ∨ bytes.length > config.maxObjectSize ∨ bytes.length > config.maxBytes then
    some cache
  else
    match cache.keys.get? key with
    | none => cache.insertNew config ⟨key, bytes⟩
    | some idx =>
      match cache.slot idx with
      | none => cache.insertNew config ⟨key, bytes⟩
      | some held => some (cache.renew idx held ⟨key, bytes⟩)

def weight (slot : Option CacheSlot) : Nat :=
  (slot.map fun held => held.bytes.length).getD 0

def cachedBytes : Nat :=
  (cache.slots.map weight).sum

def lookup (key : String) : Option Bytes :=
  (cache.get key).1

/-- The slots are used, free or taken, and the index leads to exactly the used ones. -/
structure Linked (taken : List Nat) : Prop where
  places : (taken ++ cache.order ++ cache.free).Perm (List.range cache.slots.length)
  used : ∀ idx ∈ cache.order, ∃ held, cache.slot idx = some held
  unused : ∀ idx ∈ taken ++ cache.free, cache.slot idx = none
  linked : ∀ key idx, cache.keys.get? key = some idx ↔
    ∃ held, cache.slot idx = some held ∧ held.key = key
  counted : cache.totalBytes = cache.cachedBytes
  filled : cache.slots ≠ []

section Accounting

variable {cache : ObjectCache} {taken : List Nat} {idx : Nat} {key : String} {entry held : CacheSlot}

theorem weights_set {slots : List (Option CacheSlot)} {before : Option CacheSlot}
    (here : slots[idx]? = some before) (after : Option CacheSlot) :
    ((slots.set idx after).map weight).sum + weight before =
      (slots.map weight).sum + weight after := by
  induction slots generalizing idx with
  | nil => cases here
  | cons first rest ih =>
    cases idx with
    | zero =>
      cases here
      simp only [List.set_cons_zero, List.map_cons, List.sum_cons]
      omega
    | succ idx =>
      have later := ih here
      simp only [List.set_cons_succ, List.map_cons, List.sum_cons]
      omega

theorem lookup_eq_some {bytes : Bytes} :
    cache.lookup key = some bytes ↔
      ∃ idx held, cache.keys.get? key = some idx ∧ cache.slot idx = some held ∧ held.bytes = bytes := by
  rw [lookup, get]
  cases found : cache.keys.get? key with
  | none => simp
  | some idx => simp

theorem lookup_mk (order free : List Nat) (totalBytes : Nat) :
    lookup ⟨cache.keys, order, cache.slots, free, totalBytes⟩ key = cache.lookup key := by
  apply Option.ext
  intro bytes
  rw [lookup_eq_some, lookup_eq_some]
  rfl

theorem lookup_touch : (cache.touch idx).lookup key = cache.lookup key := by
  apply Option.ext
  intro bytes
  rw [lookup_eq_some, lookup_eq_some]
  rfl

theorem slot_set (slots : List (Option CacheSlot)) (inside : idx < slots.length)
    (after : Option CacheSlot) (other : Nat) :
    (slots.set idx after)[other]?.join = if other = idx then after else slots[other]?.join := by
  rw [List.getElem?_set]
  by_cases same : idx = other
  · rw [if_pos same, if_pos (same ▸ inside), if_pos same.symm]
    rfl
  · rw [if_neg same, if_neg (Ne.symm same)]

namespace Linked

theorem lt (linked : cache.Linked taken) (inside : idx ∈ taken ++ cache.order ++ cache.free) :
    idx < cache.slots.length :=
  List.mem_range.mp (linked.places.mem_iff.mp inside)

theorem nodup (linked : cache.Linked taken) : (taken ++ cache.order ++ cache.free).Nodup :=
  linked.places.nodup_iff.mpr List.nodup_range

theorem order_of_held (linked : cache.Linked taken) (here : cache.slot idx = some held) :
    idx ∈ cache.order := by
  have inside : idx < cache.slots.length := by
    by_contra outside
    rw [slot, List.getElem?_eq_none (not_lt.mp outside)] at here
    cases here
  have member := linked.places.mem_iff.mpr (List.mem_range.mpr inside)
  obtain first | free := List.mem_append.mp member
  · obtain apart | order := List.mem_append.mp first
    · rw [linked.unused idx (List.mem_append_left _ apart)] at here
      cases here
    · exact order
  · rw [linked.unused idx (List.mem_append_right _ free)] at here
    cases here

end Linked

variable {bytes : Bytes} (config : CacheConfig)

theorem linked_new : (new config).Linked [] where
  places := by
    simp only [new, List.nil_append, List.length_replicate]
    exact List.reverse_perm _
  used := by
    intro idx inside
    cases inside
  unused := by
    intro idx _
    rw [slot, new, List.getElem?_replicate]
    split <;> rfl
  linked := by
    intro key idx
    refine iff_of_false ?_ ?_
    · intro found
      cases found
    · intro found
      obtain ⟨held, here, -⟩ := found
      rw [slot, new, List.getElem?_replicate] at here
      split at here <;> cases here
  counted := by
    simp [cachedBytes, new, weight]
  filled := by
    simp [new, capacity]

theorem Linked.touch (linked : cache.Linked taken) (inside : idx ∈ cache.order) :
    (cache.touch idx).Linked taken where
  places := by
    have same : (cache.order.erase idx ++ [idx]).Perm cache.order :=
      (List.perm_append_comm).trans (List.perm_cons_erase inside).symm
    exact (((same.append_left taken).append_right cache.free)).trans linked.places
  used := by
    intro other member
    refine linked.used other ?_
    obtain before | last := List.mem_append.mp member
    · exact List.mem_of_mem_erase before
    · exact List.mem_singleton.mp last ▸ inside
  unused := linked.unused
  linked := linked.linked
  counted := linked.counted
  filled := linked.filled

theorem get_spec (linked : cache.Linked []) (key : String) :
    ∃ after, cache.get key = (cache.lookup key, after) ∧ after.Linked [] ∧
      after.totalBytes = cache.totalBytes ∧ ∀ other, after.lookup other = cache.lookup other := by
  refine ⟨(cache.get key).2, rfl, ?_⟩
  rw [get]
  cases found : cache.keys.get? key with
  | none => exact ⟨linked, rfl, fun _ => rfl⟩
  | some idx =>
    obtain ⟨held, here, -⟩ := (linked.linked key idx).mp found
    exact ⟨linked.touch (linked.order_of_held here), rfl, fun _ => lookup_touch⟩

theorem evict_eq (here : cache.slot idx = some held) (rest : List Nat) :
    evict { cache with order := rest } idx =
      { cache with
        order := rest
        keys := cache.keys.erase held.key
        slots := cache.slots.set idx none
        totalBytes := cache.totalBytes - held.bytes.length } := by
  rw [evict]
  rw [show slot { cache with order := rest } idx = some held from here]

theorem Linked.evict {rest : List Nat} (linked : cache.Linked taken) (first : cache.order = idx :: rest) :
    (evict { cache with order := rest } idx).Linked (idx :: taken) := by
  have inside : idx ∈ cache.order := first ▸ List.mem_cons_self
  obtain ⟨held, here⟩ := linked.used idx inside
  have below : idx < cache.slots.length :=
    linked.lt (List.mem_append_left _ (List.mem_append_right _ inside))
  have places := linked.places
  rw [first] at places
  have moved : (idx :: taken ++ rest ++ cache.free).Perm (List.range cache.slots.length) := by
    refine List.Perm.trans ?_ places
    exact (List.perm_middle.symm.append_right cache.free)
  have nodup : (idx :: taken ++ rest ++ cache.free).Nodup := moved.nodup_iff.mpr List.nodup_range
  have apart : idx ∉ taken ++ rest ++ cache.free := (List.nodup_cons.mp nodup).1
  rw [evict_eq here]
  refine ⟨?_, ?_, ?_, ?_, ?_, ?_⟩
  · rw [List.length_set]
    exact moved
  · intro other member
    have different : other ≠ idx := by
      intro same
      exact apart (List.mem_append_left _ (List.mem_append_right _ (same ▸ member)))
    obtain ⟨found, there⟩ := linked.used other (first ▸ List.mem_cons_of_mem _ member)
    refine ⟨found, ?_⟩
    rw [slot, slot_set _ below, if_neg different]
    exact there
  · intro other member
    rw [slot, slot_set _ below]
    split
    · rfl
    · next different =>
        refine linked.unused other ?_
        obtain same | member := List.mem_cons.mp member
        · exact absurd same different
        · exact member
  · intro key other
    rw [BTreeMap.get?_erase, slot, slot_set _ below]
    split
    · next same =>
        refine iff_of_false (by simp) ?_
        intro found
        obtain ⟨other', there, named⟩ := found
        split at there
        · cases there
        · next different =>
            have first := (linked.linked held.key idx).mpr ⟨held, here, rfl⟩
            have second := (linked.linked key other).mpr ⟨other', there, named⟩
            rw [same] at second
            exact different (Option.some.inj (second.symm.trans first))
    · next different =>
        rw [linked.linked]
        split
        · next same =>
            refine iff_of_false ?_ (by simp)
            intro found
            obtain ⟨other', there, named⟩ := found
            rw [same, here] at there
            cases there
            exact different named.symm
        · rfl
  · have inside : cache.slots[idx]? = some (some held) := by
      rw [slot, List.getElem?_eq_getElem below] at here
      rw [List.getElem?_eq_getElem below]
      exact congrArg some here
    have sums := weights_set inside none
    have counted := linked.counted
    rw [cachedBytes] at counted ⊢
    simp only [weight, Option.map_some, Option.getD_some, Option.map_none, Option.getD_none] at sums
    simp only [counted]
    omega
  · simpa using linked.filled

theorem lookup_evict {rest : List Nat} (linked : cache.Linked taken)
    (first : cache.order = idx :: rest)
    (found : (evict { cache with order := rest } idx).lookup key = some bytes) :
    cache.lookup key = some bytes := by
  have inside : idx ∈ cache.order := first ▸ List.mem_cons_self
  obtain ⟨held, here⟩ := linked.used idx inside
  have below : idx < cache.slots.length :=
    linked.lt (List.mem_append_left _ (List.mem_append_right _ inside))
  rw [evict_eq here, lookup_eq_some] at found
  obtain ⟨other, found, index, there, same⟩ := found
  rw [BTreeMap.get?_erase] at index
  split at index
  · cases index
  · rw [slot, slot_set _ below] at there
    split at there
    · cases there
    · exact lookup_eq_some.mpr ⟨other, found, index, there, same⟩

theorem Linked.release (linked : cache.Linked (idx :: taken)) :
    Linked { cache with free := idx :: cache.free } taken where
  places := by
    refine List.Perm.trans ?_ linked.places
    have moved : (taken ++ cache.order ++ idx :: cache.free).Perm
        (idx :: (taken ++ cache.order ++ cache.free)) := List.perm_middle
    exact moved
  used := linked.used
  unused := by
    intro other inside
    refine linked.unused other ?_
    obtain apart | free := List.mem_append.mp inside
    · exact List.mem_append_left _ (List.mem_cons_of_mem _ apart)
    · obtain same | free := List.mem_cons.mp free
      · exact List.mem_append_left _ (same ▸ List.mem_cons_self)
      · exact List.mem_append_right _ free
  linked := linked.linked
  counted := linked.counted
  filled := linked.filled

theorem Linked.unfilled (linked : cache.Linked []) (none : cache.order = []) : cache.totalBytes = 0 := by
  have empty (held : Option CacheSlot) (inside : held ∈ cache.slots) : weight held = 0 := by
    obtain ⟨idx, below, here⟩ := List.mem_iff_getElem.mp inside
    cases held with
    | none => rfl
    | some entry =>
      have there : cache.slot idx = some entry := by
        rw [slot, List.getElem?_eq_getElem below, here]
        rfl
      have used := linked.order_of_held there
      rw [none] at used
      cases used
  rw [linked.counted, cachedBytes]
  rw [List.sum_eq_zero_iff_forall_eq_nat]
  intro size inside
  obtain ⟨held, member, weighs⟩ := List.mem_map.mp inside
  rw [← weighs]
  exact empty held member

theorem shrink_spec (maxBytes : Nat) (linked : cache.Linked []) :
    (shrink maxBytes cache.order cache).Linked [] ∧
      (shrink maxBytes cache.order cache).totalBytes ≤ maxBytes ∧
      ∀ key bytes, (shrink maxBytes cache.order cache).lookup key = some bytes →
        cache.lookup key = some bytes := by
  generalize order : cache.order = used
  induction used generalizing cache with
  | nil =>
    rw [shrink]
    refine ⟨linked, ?_, fun _ _ => id⟩
    rw [linked.unfilled order]
    exact Nat.zero_le _
  | cons victim rest ih =>
    rw [shrink]
    split
    · have evicted := (linked.evict order).release
      have same : (evict { cache with order := rest } victim).order = rest := by
        obtain ⟨held, here⟩ := linked.used victim (order ▸ List.mem_cons_self)
        rw [evict_eq here]
      obtain ⟨after, within, kept⟩ := ih evicted same
      refine ⟨after, within, ?_⟩
      intro key bytes found
      have evicted := kept key bytes found
      rw [lookup_mk] at evicted
      exact lookup_evict linked order evicted
    · next within => exact ⟨linked, not_lt.mp within, fun _ _ => id⟩

theorem takeSlot_spec (linked : cache.Linked []) :
    ∃ idx after, cache.takeSlot = some (idx, after) ∧ after.Linked [idx] ∧
      ∀ key bytes, after.lookup key = some bytes → cache.lookup key = some bytes := by
  rw [takeSlot]
  cases free : cache.free with
  | cons idx rest =>
    refine ⟨idx, _, rfl, ⟨?_, linked.used, ?_, linked.linked, linked.counted,
      linked.filled⟩, ?_⟩
    · have places := linked.places
      rw [free] at places
      exact List.perm_middle.symm.trans places
    · intro other inside
      refine linked.unused other ?_
      rw [free]
      exact inside
    · intro key bytes found
      rw [lookup_mk] at found
      exact found
  | nil =>
    cases order : cache.order with
    | nil =>
      have places := linked.places
      rw [free, order] at places
      have none := List.range_eq_nil.mp (List.perm_nil.mp places.symm)
      exact absurd (List.length_eq_zero_iff.mp none) linked.filled
    | cons victim rest =>
      have evicted := linked.evict order
      rw [free] at evicted
      refine ⟨victim, _, rfl, evicted, ?_⟩
      intro key bytes found
      refine lookup_evict linked order ?_
      rw [free]
      exact found

theorem keys_of_lookup (linked : cache.Linked taken) (absent : cache.lookup key = none) :
    cache.keys.get? key = none := by
  cases found : cache.keys.get? key with
  | none => rfl
  | some idx =>
    obtain ⟨held, here, -⟩ := (linked.linked key idx).mp found
    have present := lookup_eq_some.mpr ⟨idx, held, found, here, rfl⟩
    rw [absent] at present
    cases present

theorem Linked.fill (linked : cache.Linked (idx :: taken))
    (absent : cache.keys.get? entry.key = none) : (cache.fill idx entry).Linked taken := by
  have below : idx < cache.slots.length :=
    linked.lt (List.mem_append_left _ (List.mem_append_left _ List.mem_cons_self))
  have nothing : cache.slot idx = none := linked.unused idx List.mem_cons_self
  have apart := (List.nodup_cons.mp linked.nodup).1
  refine ⟨?_, ?_, ?_, ?_, ?_, ?_⟩
  · simp only [ObjectCache.fill, List.length_set]
    refine List.Perm.trans ?_ linked.places
    rw [← List.append_assoc taken cache.order [idx], List.append_assoc _ [idx]]
    exact List.perm_middle
  · intro other inside
    rw [slot, ObjectCache.fill, slot_set _ below]
    split
    · exact ⟨entry, rfl⟩
    · next different =>
        obtain before | last := List.mem_append.mp inside
        · exact linked.used other before
        · exact absurd (List.mem_singleton.mp last) different
  · intro other inside
    have different : other ≠ idx := by
      intro same
      refine apart ?_
      rw [← same]
      obtain first | free := List.mem_append.mp inside
      · exact List.mem_append_left _ (List.mem_append_left _ first)
      · exact List.mem_append_right _ free
    rw [slot, ObjectCache.fill, slot_set _ below, if_neg different]
    exact linked.unused other (List.mem_cons_of_mem _ inside)
  · intro key other
    rw [ObjectCache.fill, BTreeMap.get?_insert, slot, slot_set _ below]
    by_cases named : key = entry.key
    · rw [if_pos named]
      by_cases same : other = idx
      · rw [if_pos same]
        exact iff_of_true (congrArg some same.symm) ⟨entry, rfl, named.symm⟩
      · rw [if_neg same]
        refine iff_of_false (fun equal => same (Option.some.inj equal).symm) ?_
        intro found
        have held := (linked.linked key other).mpr found
        rw [named, absent] at held
        cases held
    · rw [if_neg named, linked.linked]
      by_cases same : other = idx
      · rw [if_pos same, same, nothing]
        refine iff_of_false (by simp) ?_
        intro found
        obtain ⟨held, here, equal⟩ := found
        cases here
        exact named equal.symm
      · rw [if_neg same]
        rfl
  · have here : cache.slots[idx]? = some none := by
      rw [slot, List.getElem?_eq_getElem below] at nothing
      rw [List.getElem?_eq_getElem below]
      exact congrArg some nothing
    have sums := weights_set here (some entry)
    have counted := linked.counted
    simp only [cachedBytes, ObjectCache.fill, weight, Option.map_some, Option.getD_some, Option.map_none,
      Option.getD_none] at counted sums ⊢
    omega
  · simpa [ObjectCache.fill] using linked.filled

theorem lookup_fill (linked : cache.Linked (idx :: taken))
    (found : (cache.fill idx entry).lookup key = some bytes) :
    (key = entry.key ∧ bytes = entry.bytes) ∨ cache.lookup key = some bytes := by
  have below : idx < cache.slots.length :=
    linked.lt (List.mem_append_left _ (List.mem_append_left _ List.mem_cons_self))
  obtain ⟨other, held, index, here, same⟩ := lookup_eq_some.mp found
  rw [ObjectCache.fill, BTreeMap.get?_insert] at index
  rw [slot, ObjectCache.fill, slot_set _ below] at here
  split at index
  · next named =>
      cases index
      rw [if_pos rfl] at here
      cases here
      exact .inl ⟨named, same.symm⟩
  · split at here
    · next equal =>
        have held := (linked.linked key other).mp index
        obtain ⟨before, there, -⟩ := held
        rw [equal, show cache.slot idx = none from linked.unused idx List.mem_cons_self] at there
        cases there
    · exact .inr (lookup_eq_some.mpr ⟨other, held, index, here, same⟩)

theorem insertNew_spec (linked : cache.Linked []) (absent : cache.lookup entry.key = none) :
    ∃ after, cache.insertNew config entry = some after ∧ after.Linked [] ∧
      after.totalBytes ≤ config.maxBytes ∧ ∀ key bytes, after.lookup key = some bytes →
        (key = entry.key ∧ bytes = entry.bytes) ∨ cache.lookup key = some bytes := by
  obtain ⟨idx, taken, found, apart, kept⟩ := takeSlot_spec linked
  have unlisted : taken.lookup entry.key = none := by
    cases held : taken.lookup entry.key with
    | none => rfl
    | some bytes =>
      have before := kept entry.key bytes held
      rw [absent] at before
      cases before
  have filled := apart.fill (keys_of_lookup apart unlisted)
  obtain ⟨after, within, left⟩ := shrink_spec config.maxBytes filled
  rw [insertNew, found]
  refine ⟨_, rfl, after, within, ?_⟩
  intro key bytes here
  exact (lookup_fill apart (left key bytes here)).imp_right (kept key bytes)

theorem Linked.renew (linked : cache.Linked []) (here : cache.slot idx = some held)
    (named : entry.key = held.key) : (cache.renew idx held entry).Linked [] := by
  have order := linked.order_of_held here
  have below : idx < cache.slots.length :=
    linked.lt (List.mem_append_left _ (List.mem_append_right _ order))
  refine Linked.touch ⟨?_, ?_, ?_, ?_, ?_, ?_⟩ order
  · rw [List.length_set]
    exact linked.places
  · intro other inside
    rw [slot, slot_set _ below]
    split
    · exact ⟨entry, rfl⟩
    · exact linked.used other inside
  · intro other inside
    rw [slot, slot_set _ below]
    split
    · next same =>
        rw [same] at inside
        rw [linked.unused idx inside] at here
        cases here
    · exact linked.unused other inside
  · intro key other
    rw [linked.linked, slot, slot, slot_set _ below]
    split
    · next same =>
        rw [same, show cache.slots[idx]?.join = some held from here]
        simp [named]
    · rfl
  · have inside : cache.slots[idx]? = some (some held) := by
      rw [slot, List.getElem?_eq_getElem below] at here
      rw [List.getElem?_eq_getElem below]
      exact congrArg some here
    have sums := weights_set inside (some entry)
    have least := weights_set inside none
    have counted := linked.counted
    simp only [cachedBytes, weight, Option.map_some, Option.getD_some, Option.map_none,
      Option.getD_none] at counted sums least ⊢
    omega
  · simpa using linked.filled

theorem lookup_renew (linked : cache.Linked []) (here : cache.slot idx = some held)
    (found : (cache.renew idx held entry).lookup key = some bytes) :
    (key = held.key ∧ bytes = entry.bytes) ∨ cache.lookup key = some bytes := by
  have below : idx < cache.slots.length :=
    linked.lt (List.mem_append_left _ (List.mem_append_right _ (linked.order_of_held here)))
  rw [ObjectCache.renew, lookup_touch] at found
  obtain ⟨other, there, index, member, same⟩ := lookup_eq_some.mp found
  rw [slot, slot_set _ below] at member
  split at member
  · next equal =>
      cases member
      obtain ⟨before, inside, named⟩ := (linked.linked key other).mp index
      rw [equal, here] at inside
      cases inside
      exact .inl ⟨named.symm, same.symm⟩
  · exact .inr (lookup_eq_some.mpr ⟨other, there, index, member, same⟩)

/-- An insertion succeeds, keeps the accounts and the limit, and adds nothing but its entry; it relies
on the key to tell the size of the body. -/
theorem insert_spec (linked : cache.Linked []) (within : cache.totalBytes ≤ config.maxBytes)
    (bytes : Bytes)
    (sized : ∀ before, cache.lookup key = some before → before.length = bytes.length) :
    ∃ after, cache.insert config key bytes = some after ∧ after.Linked [] ∧
      after.totalBytes ≤ config.maxBytes ∧ ∀ other found, after.lookup other = some found →
        (other = key ∧ found = bytes) ∨ cache.lookup other = some found := by
  rw [ObjectCache.insert]
  split
  · exact ⟨cache, rfl, linked, within, fun _ _ => .inr⟩
  · cases index : cache.keys.get? key with
    | none =>
      refine insertNew_spec config linked ?_
      rw [lookup, get, index]
    | some idx =>
      obtain ⟨held, here, named⟩ := (linked.linked key idx).mp index
      have before := sized held.bytes (lookup_eq_some.mpr ⟨idx, held, index, here, rfl⟩)
      simp only [here]
      refine ⟨_, rfl, linked.renew here named.symm, ?_, ?_⟩
      · rw [ObjectCache.renew, touch]
        simp only [← before]
        omega
      · intro other found kept
        exact (lookup_renew linked here kept).imp_left fun both => ⟨both.1.trans named, both.2⟩

end Accounting

end ObjectCache

end FastS3.Core
