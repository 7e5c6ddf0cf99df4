import FastS3.Meta.Keys

namespace FastS3.Meta

open FastS3.Core Data

/-! The scans over the object rows of a bucket.

The rows of a key stand together: its single row first, then its versions in the order of
their version keys, and the null slot at the end.  Which of them is current is decided by
time.  Texts are compared as their UTF-8 bytes.
-/

/-- The object rows, in the order of their raw keys, and the versioning of the buckets.  The
single row of a key and its null slot do not coexist, and a bucket whose versioning was never
on has neither versions nor delete markers. -/
structure ObjectRows where
  objects : BTreeMap Bytes ObjectMeta
  versioning : String → VersioningState
  addressed : ∀ entry ∈ objects.entries, ∃ place : ObjectAddress, entry.1 = place.raw
  oneNull : ∀ (place other : ObjectAddress) (m m' : ObjectMeta), (place.raw, m) ∈ objects.entries →
    (other.raw, m') ∈ objects.entries → place.bucket = other.bucket → place.key = other.key →
    place.vk = none → other.vk ≠ some vkNull
  plain : ∀ (place : ObjectAddress) (m : ObjectMeta), versioning place.bucket = .off →
    (place.raw, m) ∈ objects.entries → place.vk = none ∧ m.isDeleteMarker = false

structure Slots where
  legacy : Option ObjectMeta
  nullSlot : Option ObjectMeta
  real : Option (Vk × ObjectMeta)

namespace Slots

def empty : Slots :=
  ⟨none, none, none⟩

def absorb (slots : Slots) : Option Vk → ObjectMeta → Slots
  | none, m => { slots with legacy := some m }
  | some vk, m =>
    if vk = vkNull then { slots with nullSlot := some m }
    else { slots with real := some (vk, m) }

def current (slots : Slots) : Option (Vk × ObjectMeta) :=
  d1aPickCurrent (·.mtime) slots.legacy slots.nullSlot slots.real

end Slots

/-- The loop of `version_scan_tip`, downwards; a row above the prefix that does not begin
with it belongs to another key and is passed. -/
def tipLoop (keyPrefix : Bytes) : List (Bytes × ObjectMeta) → Option ObjectMeta →
    Except Error (Option ObjectMeta × Option (Vk × ObjectMeta))
  | [], nullSlot => .ok (nullSlot, none)
  | (raw, m) :: rest, nullSlot =>
    if !keyPrefix.isPrefixOf raw then
      if raw < keyPrefix then .ok (nullSlot, none) else tipLoop keyPrefix rest nullSlot
    else do
      let (_, _, vk) ← parseObjectVersionKey raw
      let vk ← orCorrupt "version entry missing vk" vk
      if vk = vkNull then tipLoop keyPrefix rest (some m) else return (nullSlot, some (vk, m))

def scanStart (bucket : String) : Option Bytes → Bytes
  | some marker => objectPrefix bucket ++ escape marker
  | none => objectPrefix bucket

namespace ObjectRows

variable (rows : ObjectRows)

def getObject (bucket key : String) : Option ObjectMeta :=
  rows.objects.get? (objectRawKey bucket key none)

/-- The null slot of a key and its largest real version.  The scan starts at the prefix with
its last byte raised. -/
def versionScanTip (bucket key : String) :
    Except Error (Option ObjectMeta × Option (Vk × ObjectMeta)) :=
  let upper := objectRawKey bucket key none ++ [0x01]
  tipLoop (objectKeyPrefix bucket key)
    (rows.objects.entries.filter fun entry => entry.1 ≤ upper).reverse none

def getCurrentVersion (bucket key : String) : Except Error (Option (Vk × ObjectMeta)) := do
  let legacy := rows.getObject bucket key
  let (nullSlot, maxReal) ← rows.versionScanTip bucket key
  return d1aPickCurrent (·.mtime) legacy nullSlot maxReal

/-- The rows of a bucket from a marker on, as an iterator yields them until it leaves the
bucket. -/
def scanFrom (bucket : String) (after : Option Bytes) : List (Bytes × ObjectMeta) :=
  (rows.objects.entries.filter fun entry => scanStart bucket after ≤ entry.1).takeWhile
    fun entry => (objectPrefix bucket).isPrefixOf entry.1

end ObjectRows

/-- The loop over the rows of a scan: the rows of a key are gathered, and the key is emitted
when the next key begins or the scan ends.  An emission that answers `false` stops it. -/
def scanGroups {γ σ : Type} (gather : γ → Option Vk → ObjectMeta → γ) (fresh : γ)
    (emit : String → γ → σ → Bool × σ) :
    List (Bytes × ObjectMeta) → Option (String × γ) → σ → Except Error (Bool × σ)
  | [], none, st => .ok (true, st)
  | [], some (held, group), st => .ok (emit held group st)
  | (raw, m) :: rest, none, st => do
      let (_, key, vk) ← parseObjectVersionKey raw
      scanGroups gather fresh emit rest (some (key, gather fresh vk m)) st
  | (raw, m) :: rest, some (held, group), st => do
      let (_, key, vk) ← parseObjectVersionKey raw
      if held = key then scanGroups gather fresh emit rest (some (key, gather group vk m)) st
      else
        let emitted := emit held group st
        if emitted.1 then
          scanGroups gather fresh emit rest (some (key, gather fresh vk m)) emitted.2
        else return emitted

def emitCurrent {σ : Type} (emit : String → ObjectMeta → σ → Bool × σ) (key : String)
    (slots : Slots) (st : σ) : Bool × σ :=
  match slots.current with
  | none => (true, st)
  | some (_, m) => emit key m st

/-- `starts_with`, where the empty prefix is not tested. -/
def underPrefix (keyPrefix : Bytes) (key : String) : Bool :=
  keyPrefix = [] || keyPrefix.isPrefixOf (utf8 key)

/-- The loop of `list_objects_plain`. -/
def plainLoop (keyPrefix : Bytes) : List (Bytes × ObjectMeta) → List (String × ObjectMeta) →
    Except Error (List (String × ObjectMeta))
  | [], out => .ok out
  | (raw, m) :: rest, out => do
      let (_, key) ← parseObjectKey raw
      plainLoop keyPrefix rest (if underPrefix keyPrefix key then out ++ [(key, m)] else out)

namespace ObjectRows

variable (rows : ObjectRows)

def listObjectsPlain (bucket : String) (keyPrefix : Bytes) :
    Except Error (List (String × ObjectMeta)) :=
  plainLoop keyPrefix (rows.scanFrom bucket none) []

def listObjects (bucket : String) (keyPrefix : Bytes) :
    Except Error (List (String × ObjectMeta)) :=
  if rows.versioning bucket = .off then rows.listObjectsPlain bucket keyPrefix
  else do
    let emit := fun key (m : ObjectMeta) out =>
      (true, if !m.isDeleteMarker && underPrefix keyPrefix key then out ++ [(key, m)] else out)
    let scanned ← scanGroups Slots.absorb .empty (emitCurrent emit) (rows.scanFrom bucket none)
      none []
    return scanned.2

end ObjectRows

/-- `str::find`. -/
def findText (needle : Bytes) : Bytes → Option Nat
  | [] => if needle = [] then some 0 else none
  | b :: rest =>
    if needle.isPrefixOf (b :: rest) then some 0 else (findText needle rest).map (· + 1)

/-- What a request lists: keys under a prefix, rolled up at a delimiter. -/
structure Query where
  keyPrefix : Bytes
  delimiter : Option Bytes

def Query.entryOf (query : Query) (key : Bytes) : Bytes × Bool :=
  match query.delimiter with
  | none => (key, false)
  | some delimiter =>
    if delimiter = [] then (key, false)
    else
      let rest := key.drop (min query.keyPrefix.length key.length)
      match findText delimiter rest with
      | some i => (query.keyPrefix ++ rest.take (i + delimiter.length), true)
      | none => (key, false)

structure ListPage where
  items : List (String × ObjectMeta)
  commonPrefixes : List Bytes
  truncated : Bool
  lastScanned : Option Bytes
deriving DecidableEq

/-- A page while it grows; the last entry is the one that was emitted last. -/
structure ListState where
  items : List (String × ObjectMeta)
  commonPrefixes : List Bytes
  entries : Nat
  lastEntry : Option Bytes

namespace ListState

def empty : ListState :=
  ⟨[], [], 0, none⟩

def push (st : ListState) (isPrefix : Bool) (entry : Bytes) (key : String) (m : ObjectMeta) :
    ListState :=
  if isPrefix || entry ≠ utf8 key then
    ⟨st.items, st.commonPrefixes ++ [entry], st.entries + 1, some entry⟩
  else ⟨st.items ++ [(key, m)], st.commonPrefixes, st.entries + 1, some entry⟩

def page (st : ListState) (truncated : Bool) : ListPage :=
  ⟨st.items, st.commonPrefixes, truncated, st.lastEntry⟩

end ListState

def atMarker (after : Option Bytes) (entry : Bytes) : Bool :=
  match after with
  | none => false
  | some marker => entry ≤ marker

/-- The emission of a key; `false` when the page is full. -/
def emitEntry (query : Query) (after : Option Bytes) (max : Nat) (key : String) (m : ObjectMeta)
    (st : ListState) : Bool × ListState :=
  let entry := query.entryOf (utf8 key)
  if !underPrefix query.keyPrefix key then (true, st)
  else if atMarker after entry.1 then (true, st)
  else if st.lastEntry = some entry.1 then (true, st)
  else if st.entries ≥ max then (false, st)
  else (true, st.push entry.2 entry.1 key m)

/-- The loop of `list_objects_page_plain`. -/
def plainPageLoop (query : Query) (after : Option Bytes) (max : Nat) :
    List (Bytes × ObjectMeta) → ListState → Except Error (Bool × ListState)
  | [], st => .ok (true, st)
  | (raw, m) :: rest, st => do
      let (_, key) ← parseObjectKey raw
      let emitted := emitEntry query after max key m st
      if emitted.1 then plainPageLoop query after max rest emitted.2 else return emitted

namespace ObjectRows

variable (rows : ObjectRows)

def listObjectsPagePlain (bucket : String) (query : Query) (after : Option Bytes) (max : Nat) :
    Except Error ListPage := do
  let scanned ← plainPageLoop query after max (rows.scanFrom bucket after) .empty
  return scanned.2.page (!scanned.1)

def listObjectsPageVersioned (bucket : String) (query : Query) (after : Option Bytes)
    (max : Nat) : Except Error ListPage := do
  let emit := fun key (m : ObjectMeta) st =>
    if m.isDeleteMarker then (true, st) else emitEntry query after max key m st
  let scanned ← scanGroups Slots.absorb .empty (emitCurrent emit) (rows.scanFrom bucket after)
    none .empty
  return scanned.2.page (!scanned.1)

def listObjectsPage (bucket : String) (query : Query) (after : Option Bytes) (max : Nat) :
    Except Error ListPage :=
  if rows.versioning bucket = .off then rows.listObjectsPagePlain bucket query after max
  else rows.listObjectsPageVersioned bucket query after max

end ObjectRows

structure VersionListEntry where
  key : String
  vk : Vk
  value : ObjectMeta
  isLatest : Bool
deriving DecidableEq

structure VersionListPage where
  entries : List VersionListEntry
  commonPrefixes : List Bytes
  truncated : Bool
  lastScanned : Option (Bytes × Option Vk)
deriving DecidableEq

structure VersionState where
  entries : List VersionListEntry
  commonPrefixes : List Bytes
  emitted : Nat
  lastEmitted : Option (Bytes × Option Vk)

namespace VersionState

def empty : VersionState :=
  ⟨[], [], 0, none⟩

def page (st : VersionState) (truncated : Bool) : VersionListPage :=
  ⟨st.entries, st.commonPrefixes, truncated, st.lastEmitted⟩

end VersionState

/-- The order inside a key: younger first; of one time, the null version last, and greater
version keys first. -/
def newerFirst (left right : Vk × ObjectMeta) : Bool :=
  if left.2.mtime ≠ right.2.mtime then right.2.mtime < left.2.mtime
  else if (left.1 == vkNull) ≠ (right.1 == vkNull) then right.1 == vkNull
  else right.1 ≤ left.1

/-- `max_by_key`: of several largest, the last. -/
def maxByKey {α ω : Type} [LinearOrder ω] (rank : α → ω) : List α → Option α
  | [] => none
  | item :: rest =>
    match maxByKey rank rest with
    | none => some item
    | some best => if rank item ≤ rank best then some best else some item

def latestVk (group : List (Vk × ObjectMeta)) : Option Vk :=
  let nullFamily := maxByKey (fun m => m.mtime)
    ((group.filter fun version => version.1 = vkNull).map Prod.snd)
  let maxReal := maxByKey Prod.fst (group.filter fun version => version.1 ≠ vkNull)
  (d1aPickCurrent (·.mtime) none nullFamily maxReal).map Prod.fst

def skipsGroup (keyMarker : Option Bytes) (versionIdMarker : Option Vk) (entry : Bytes × Bool) :
    Bool :=
  match keyMarker with
  | none => false
  | some marker => entry.1 < marker || (entry.1 = marker && (entry.2 || versionIdMarker.isNone))

def behindMarker (keyMarker : Option Bytes) (versionIdMarker : Option Vk) (key : String)
    (group : List (Vk × ObjectMeta)) : List (Vk × ObjectMeta) :=
  match keyMarker, versionIdMarker with
  | some marker, some vm =>
    if marker = utf8 key then (group.dropWhile fun version => version.1 ≠ vm).drop 1 else group
  | _, _ => group

def emitVersions (max : Nat) (key : String) (latest : Option Vk) :
    List (Vk × ObjectMeta) → VersionState → Bool × VersionState
  | [], st => (true, st)
  | (vk, m) :: rest, st =>
    if st.emitted ≥ max then (false, st)
    else
      emitVersions max key latest rest
        ⟨st.entries ++ [⟨key, vk, m, some vk = latest⟩], st.commonPrefixes, st.emitted + 1,
          some (utf8 key, some vk)⟩

/-- The emission of the versions of a key; `false` when the page is full. -/
def flushGroup (query : Query) (keyMarker : Option Bytes) (versionIdMarker : Option Vk)
    (max : Nat) (key : String) (gathered : List (Vk × ObjectMeta)) (st : VersionState) :
    Bool × VersionState :=
  let entry := query.entryOf (utf8 key)
  if !underPrefix query.keyPrefix key then (true, st)
  else if skipsGroup keyMarker versionIdMarker entry then (true, st)
  else
    let group := gathered.insertionSort fun left right => newerFirst left right = true
    let latest := latestVk group
    if entry.2 || entry.1 ≠ utf8 key then
      if st.commonPrefixes.getLast? = some entry.1 then (true, st)
      else if st.emitted ≥ max then (false, st)
      else
        (true, ⟨st.entries, st.commonPrefixes ++ [entry.1], st.emitted + 1, some (entry.1, none)⟩)
    else emitVersions max key latest (behindMarker keyMarker versionIdMarker key group) st

def gatherVersion (group : List (Vk × ObjectMeta)) (vk : Option Vk) (m : ObjectMeta) :
    List (Vk × ObjectMeta) :=
  group ++ [(vk.getD vkNull, m)]

def ObjectRows.listVersionsPage (rows : ObjectRows) (bucket : String) (query : Query)
    (keyMarker : Option Bytes) (versionIdMarker : Option Vk) (max : Nat) :
    Except Error VersionListPage := do
  let scanned ← scanGroups gatherVersion []
    (flushGroup query keyMarker versionIdMarker max) (rows.scanFrom bucket keyMarker) none .empty
  return scanned.2.page (!scanned.1)

end FastS3.Meta
