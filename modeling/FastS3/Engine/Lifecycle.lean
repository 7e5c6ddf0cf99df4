import FastS3.Data.Lexicographic
import FastS3.Meta.Values

namespace FastS3.Engine

open FastS3.Core (VersioningState Vk vkNull vkTimeUs)
open Meta (LifecycleFilter LifecycleRule ObjectMeta)

/-! What the lifecycle rules of a bucket ask for, from the stored versions of a key.

Times are in seconds.  The rules are evaluated without side effects; the abortion of uploads is not
decided on the versions of a key.
-/

def nextMidnightUtc (ts : Int) : Int :=
  (ts / 86400 + 1) * 86400

def daysDeadline (base : Int) (days : Nat) : Int :=
  nextMidnightUtc (base + days * 86400)

inductive LifecycleAction where
  | deleteCurrent
  | insertDeleteMarker
  | deleteNoncurrentVersion (vk : Vk)
  | expireDeleteMarker
  | transition (storageClass : String)
deriving Repr, DecidableEq

structure EntryCtx where
  key : String
  vk : Option Vk
  record : ObjectMeta
  versioning : VersioningState
  isCurrent : Bool
  noncurrentSince : Option Int
  groupLen : Nat
  noncurrentRank : Option Nat

def filterMatches (filter : LifecycleFilter) (key : String) (tags : List (String × String)) : Bool :=
  filter.namePrefix.toList.isPrefixOf key.toList && filter.tags.all fun tag => tags.contains tag

def LifecycleRule.applies (rule : LifecycleRule) (ctx : EntryCtx) : Bool :=
  rule.status = .enabled && filterMatches rule.filter ctx.key ctx.record.tags

def dueBy (base now : Int) (days : Option Nat) (date : Option Int) : Bool :=
  (days.any fun d => daysDeadline base d ≤ now) || date.any fun d => d ≤ now

def currentActions (ctx : EntryCtx) (rule : LifecycleRule) (now : Int) : List LifecycleAction :=
  (match rule.transition with
    | some tr =>
      if !ctx.record.isDeleteMarker && dueBy ctx.record.mtime now tr.days tr.date then
        [.transition tr.storageClass]
      else []
    | none => []) ++
  (match rule.expiration with
    | some exp =>
      if ctx.record.isDeleteMarker then
        -- a marker goes when nothing else is left
        if exp.expiredObjectDeleteMarker && ctx.groupLen = 1 then [.expireDeleteMarker] else []
      else if dueBy ctx.record.mtime now exp.days exp.date then
        if ctx.versioning = .off then [.deleteCurrent] else [.insertDeleteMarker]
      else []
    | none => [])

def daysHit (ctx : EntryCtx) (days : Option Nat) (now : Int) : Bool :=
  match days, ctx.noncurrentSince with
  | some d, some since => daysDeadline since d ≤ now
  | _, _ => false

def keepHit (ctx : EntryCtx) (newer : Option Nat) : Bool :=
  match newer, ctx.noncurrentRank with
  | some keep, some rank => keep ≤ rank
  | _, _ => false

/-- The actions of a rule on a noncurrent version: either of its two members suffices. -/
def noncurrentActions (ctx : EntryCtx) (rule : LifecycleRule) (now : Int) : List LifecycleAction :=
  match rule.noncurrentExpiration with
  | some nc =>
    if ctx.versioning ≠ .off ∧ (daysHit ctx nc.noncurrentDays now ||
        keepHit ctx nc.newerNoncurrentVersions) = true then
      [.deleteNoncurrentVersion (ctx.vk.getD vkNull)]
    else []
  | none => []

def ruleActions (ctx : EntryCtx) (rule : LifecycleRule) (now : Int) : List LifecycleAction :=
  if ctx.isCurrent then currentActions ctx rule now else noncurrentActions ctx rule now

def pushUnique {α : Type} [DecidableEq α] (out : List α) (a : α) : List α :=
  if a ∈ out then out else out ++ [a]

def matchEntry (ctx : EntryCtx) (rules : List LifecycleRule) (now : Int) : List LifecycleAction :=
  (rules.flatMap fun rule => if LifecycleRule.applies rule ctx then ruleActions ctx rule now else [])
    |>.foldl pushUnique []

/-- A stored version of a key; a row without a version key is from before the versions. -/
abbrev GroupEntry := Option Vk × ObjectMeta

namespace GroupEntry

variable (entry : GroupEntry)

def isReal : Bool :=
  match entry.1 with
  | some vk => vk ≠ vkNull
  | none => false

def writeTime : Int :=
  match entry.1 with
  | some vk => if vk ≠ vkNull then (vkTimeUs vk / 1000000 : Nat) else entry.2.mtime
  | none => entry.2.mtime

def addressed : Vk :=
  entry.1.getD vkNull

end GroupEntry

/-- An entry comes before the others without a version key, and after those below its own one. -/
def slotAtMost (a b : Option Vk) : Bool :=
  match a, b with
  | none, _ => true
  | some _, none => false
  | some v, some w => v ≤ w

/-- The order in which noncurrent versions are counted: by time, with real versions first. -/
def newerEntry (a b : GroupEntry) : Bool :=
  if GroupEntry.writeTime a ≠ GroupEntry.writeTime b then GroupEntry.writeTime b < GroupEntry.writeTime a
  else if GroupEntry.isReal a ≠ GroupEntry.isReal b then GroupEntry.isReal a
  else slotAtMost b.1 a.1

section Group

variable (entries : List GroupEntry)

def legacyOf : Option GroupEntry :=
  (entries.filter fun entry => entry.1 = none).getLast?

def nullSlotOf : Option GroupEntry :=
  (entries.filter fun entry => entry.1 = some vkNull).getLast?

def realsOf : List GroupEntry :=
  (entries.filter GroupEntry.isReal).insertionSort fun a b => GroupEntry.addressed a ≤ GroupEntry.addressed b

def nullPickOf : Option GroupEntry :=
  match legacyOf entries, nullSlotOf entries with
  | some l, some n => some (if l.2.mtime ≥ n.2.mtime then l else n)
  | some l, none => some l
  | none, n => n

def currentOf : Option GroupEntry :=
  match nullPickOf entries, (realsOf entries).getLast? with
  | some n, some r => some (if n.2.mtime > GroupEntry.writeTime r then n else r)
  | some n, none => some n
  | none, r => r

/-- Since when a version is not the current one.  The null slot is noncurrent behind a real version;
its time is bounded by that of the current one. -/
def sinceOf (current entry : GroupEntry) : Option Int :=
  if entry = current then none
  else match entry.1 with
    | none =>
      match (realsOf entries).head? with
      | some r => some (GroupEntry.writeTime r)
      | none => (nullSlotOf entries).map fun n => n.2.mtime
    | some vk =>
      if vk ≠ vkNull then
        match (realsOf entries).find? fun r => decide (vk < GroupEntry.addressed r) with
        | some r => some (GroupEntry.writeTime r)
        | none => (nullPickOf entries).map fun n => n.2.mtime
      else some (GroupEntry.writeTime current)

def noncurrentOf (current : GroupEntry) : List GroupEntry :=
  (entries.filter fun entry => entry ≠ current).insertionSort fun a b => newerEntry a b = true

def rankOf (current entry : GroupEntry) : Option Nat :=
  if entry ∈ noncurrentOf entries current then
    some ((noncurrentOf entries current).idxOf entry)
  else none

def entryCtx (key : String) (versioning : VersioningState) (current entry : GroupEntry) : EntryCtx where
  key := key
  vk := entry.1
  record := entry.2
  versioning := versioning
  isCurrent := entry = current
  noncurrentSince := sinceOf entries current entry
  groupLen := entries.length
  noncurrentRank := rankOf entries current entry

end Group

structure GroupAction where
  action : LifecycleAction
  targetVk : Vk
  bytes : Nat
deriving Repr, DecidableEq

def skipped (entries : List GroupEntry) : LifecycleAction → Bool
  | .deleteNoncurrentVersion vk =>
    vk = vkNull && (legacyOf entries).isSome && (nullSlotOf entries).isSome
  | _ => false

def groupAction (current entry : GroupEntry) (action : LifecycleAction) : GroupAction :=
  let currentVk := GroupEntry.addressed current
  match action with
  | .deleteCurrent => ⟨action, currentVk, entry.2.size⟩
  | .insertDeleteMarker => ⟨action, currentVk, 0⟩
  | .deleteNoncurrentVersion vk => ⟨action, vk, entry.2.size⟩
  | .expireDeleteMarker => ⟨action, currentVk, 0⟩
  | .transition _ => ⟨action, currentVk, 0⟩

def entryActions (key : String) (entries : List GroupEntry) (versioning : VersioningState)
    (rules : List LifecycleRule) (now : Int) (current entry : GroupEntry) : List GroupAction :=
  ((matchEntry (entryCtx entries key versioning current entry) rules now).filter fun action =>
    !skipped entries action).map (groupAction current entry)

def evalKeyGroup (key : String) (entries : List GroupEntry) (versioning : VersioningState)
    (rules : List LifecycleRule) (now : Int) : List GroupAction :=
  match currentOf entries with
  | none => []
  | some current =>
    (entries.flatMap (entryActions key entries versioning rules now current)).foldl pushUnique []

end FastS3.Engine
