import FastS3.Data.Runs
import FastS3.S3.Authorize

namespace FastS3.S3

open Data
open FastS3.Core (Bytes)

/-! The policy of a bucket that requests are judged by.

The policies are stored with the buckets, and a cache of parsed policies stands before them.  Readers
fill the cache after they have let go of the lock of the engine, writers put their policy in after their
commit, and replicated records do not know the cache.
-/

/-- A request between two of its accesses to the store and to the cache. -/
inductive PolicyTask where
  | missed (bucket : String)
  | parsed (bucket : String) (policy : Option Policy)
  | committed (bucket : String) (policy : Policy)
  | found (bucket : String)
  | deleted (bucket : String)
  /-- A bucket was created or deleted, under the lock of the engine. -/
  | removing (bucket : String)
deriving DecidableEq

def PolicyTask.bucket : PolicyTask → String
  | missed bucket => bucket
  | parsed bucket _ => bucket
  | committed bucket _ => bucket
  | found bucket => bucket
  | deleted bucket => bucket
  | removing bucket => bucket

/-- What a request comes to the cache with. -/
def PolicyTask.carries : PolicyTask → Option (Option Policy)
  | parsed _ policy => some policy
  | committed _ policy => some (some policy)
  | deleted _ => some none
  | _ => none

/-- The buckets with their policies, the cache, the requests in progress, and whether one of them holds
the lock of the engine; and what has happened: the document that was stored when a request read or
committed its policy, and when the one did that filled the cache. -/
structure PolicyWorld where
  buckets : BTreeMap String (Option Bytes)
  bucketPolicies : BTreeMap String (Option Policy)
  tasks : BTreeMap Nat PolicyTask
  locked : Bool
  noted : Nat → Option Bytes
  origin : String → Option Bytes

def PolicyWorld.serving (buckets : BTreeMap String (Option Bytes)) : PolicyWorld :=
  ⟨buckets, .empty, .empty, false, fun _ => none, fun _ => none⟩

/-- The steps of requests, each with the number of its request; a call of the store may fail, and a
put may be refused before its commit. -/
inductive PolicyStep where
  | lookUp (id : Nat) (bucket : String)
  | read (id : Nat) (fails : Bool)
  | put (id : Nat) (bucket : String) (body : Bytes) (fails : Bool)
  | find (id : Nat) (bucket : String)
  | delete (id : Nat) (fails : Bool)
  | create (id : Nat) (bucket : String) (fails : Bool)
  | deleteBucket (id : Nat) (bucket : String) (fails : Bool)
  | finish (id : Nat)
  | applyRecord (bucket : String) (row : Option (Option Bytes))

namespace PolicyWorld

variable (parse : Bytes → Option Policy) (w : PolicyWorld)

def storedPolicy (bucket : String) : Option Policy :=
  (w.buckets.get? bucket).join.bind parse

/-- What `bucket_policy` returns to a request that meets no other. -/
def bucketPolicy (bucket : String) : Option Policy :=
  match w.bucketPolicies.get? bucket with
  | some hit => hit
  | none => w.storedPolicy parse bucket

def begin (id : Nat) (task : PolicyTask) (document : Option Bytes := none) : PolicyWorld :=
  { w with tasks := w.tasks.insert id task, noted := Function.update w.noted id document }

def fill (id : Nat) (bucket : String) (policy : Option Policy) : PolicyWorld :=
  { w with
    bucketPolicies := w.bucketPolicies.insert bucket policy
    origin := Function.update w.origin bucket (w.noted id) }

def fresh (id : Nat) : Bool :=
  (w.tasks.get? id).isNone

def finishTask (id : Nat) (task : PolicyTask) : PolicyWorld :=
  let w := { w with tasks := w.tasks.erase id }
  match task with
  | .parsed bucket policy => w.fill id bucket policy
  | .committed bucket policy => w.fill id bucket (some policy)
  | .deleted bucket => w.fill id bucket none
  | .removing bucket => { w with bucketPolicies := w.bucketPolicies.erase bucket, locked := false }
  | .missed _ => w
  | .found _ => w

def ready : PolicyTask → Bool
  | .missed _ => false
  | .found _ => false
  | _ => true

def step : PolicyStep → PolicyWorld
  | .lookUp id bucket =>
    if w.fresh id && (w.bucketPolicies.get? bucket).isNone then w.begin id (.missed bucket) else w
  | .read id fails =>
    match w.tasks.get? id with
    | some (.missed bucket) =>
      if w.locked then w
      else
        w.begin id (.parsed bucket (if fails then none else w.storedPolicy parse bucket))
          (if fails then none else (w.buckets.get? bucket).join)
    | _ => w
  | .put id bucket body fails =>
    match w.buckets.get? bucket, parse body with
    | some _, some policy =>
      if w.fresh id && !w.locked && !fails then
        { w with buckets := w.buckets.insert bucket (some body) }.begin id (.committed bucket policy)
          (some body)
      else w
    | _, _ => w
  | .find id bucket =>
    if w.fresh id && !w.locked && (w.buckets.get? bucket).join.isSome then w.begin id (.found bucket)
    else w
  | .delete id fails =>
    match w.tasks.get? id with
    | some (.found bucket) =>
      if w.locked then w
      else if fails || (w.buckets.get? bucket).isNone then { w with tasks := w.tasks.erase id }
      else { w with buckets := w.buckets.insert bucket none }.begin id (.deleted bucket)
    | _ => w
  | .create id bucket fails =>
    if w.fresh id && !w.locked && !fails && (w.buckets.get? bucket).isNone then
      { w with buckets := w.buckets.insert bucket none, locked := true }.begin id (.removing bucket)
    else w
  | .deleteBucket id bucket fails =>
    if w.fresh id && !w.locked && !fails && (w.buckets.get? bucket).isSome then
      { w with buckets := w.buckets.erase bucket, locked := true }.begin id (.removing bucket)
    else w
  | .finish id =>
    match w.tasks.get? id with
    | some task => if ready task then w.finishTask id task else w
    | none => w
  | .applyRecord bucket row =>
    match row with
    | some row => { w with buckets := w.buckets.insert bucket row }
    | none => { w with buckets := w.buckets.erase bucket }

def Busy (except : Option Nat) (bucket : String) : Prop :=
  ∃ id task, w.tasks.get? id = some task ∧ some id ≠ except ∧ task.bucket = bucket

/-- The policy in force is the stored one, wherever no request for the bucket is in progress. -/
def InForce : Prop :=
  ∀ bucket, ¬w.Busy none bucket → w.bucketPolicy parse bucket = w.storedPolicy parse bucket

/-- The stored policy is still the one of a document that was stored before. -/
def Unchanged (bucket : String) (document : Option Bytes) : Prop :=
  w.storedPolicy parse bucket = document.bind parse

/-- The stored policy does not change between the read or the commit of a request and its cache insert,
and from then on until a delete is given up or a record is applied, unless another request for the
bucket is still in progress. -/
def Undisturbed : PolicyStep → Prop
  | .finish id => ∀ task, w.tasks.get? id = some task → task.carries.isSome = true →
      w.Busy (some id) task.bucket ∨ w.Unchanged parse task.bucket (w.noted id)
  | .delete id fails =>
    match w.tasks.get? id with
    | some (.found bucket) => !w.locked ∧ (fails || (w.buckets.get? bucket).isNone) →
        w.Busy (some id) bucket ∨ ((w.bucketPolicies.get? bucket).isSome = true →
          w.Unchanged parse bucket (w.origin bucket))
    | _ => True
  | .applyRecord bucket row => w.Busy none bucket ∨ ((w.bucketPolicies.get? bucket).isSome = true →
      row.join.bind parse = (w.origin bucket).bind parse)
  | _ => True

/-- What requests come to the cache with, and what the cache has, was read from the noted documents. -/
structure Traced : Prop where
  carried : ∀ id task policy, w.tasks.get? id = some task → task.carries = some policy →
    policy = (w.noted id).bind parse
  cached : ∀ bucket policy, w.bucketPolicies.get? bucket = some policy →
    policy = (w.origin bucket).bind parse

end PolicyWorld

section Steps

open PolicyWorld

variable {parse : Bytes → Option Policy} {w after : PolicyWorld} {bucket : String} {id : Nat}
  {task : PolicyTask}

def Apart (w after : PolicyWorld) (bucket : String) : Prop :=
  ∀ other, other ≠ bucket → after.bucketPolicies.get? other = w.bucketPolicies.get? other ∧
    after.buckets.get? other = w.buckets.get? other ∧ (w.Busy none other → after.Busy none other)

theorem inForce_iff (inForce : w.InForce parse) (apart : Apart w after bucket) :
    after.InForce parse ↔
      (¬after.Busy none bucket → after.bucketPolicy parse bucket = after.storedPolicy parse bucket) := by
  constructor
  · intro all
    exact all bucket
  · intro own other quiet
    by_cases same : other = bucket
    · rw [same] at quiet ⊢
      exact own quiet
    · obtain ⟨cached, stored, busy⟩ := apart other same
      have before := inForce other fun held => quiet (busy held)
      simp only [bucketPolicy, storedPolicy, cached, stored] at before ⊢
      exact before

theorem busy_begin (w : PolicyWorld) (id : Nat) (task : PolicyTask) (document : Option Bytes) :
    (w.begin id task document).Busy none task.bucket := by
  refine ⟨id, task, ?_, nofun, rfl⟩
  rw [begin, BTreeMap.get?_insert, if_pos rfl]

theorem inForce_of_busy (inForce : w.InForce parse) (apart : Apart w after bucket)
    (busy : after.Busy none bucket) : after.InForce parse :=
  (inForce_iff inForce apart).mpr fun quiet => absurd busy quiet

theorem apart_begin (task : PolicyTask) {buckets : BTreeMap String (Option Bytes)} {locked : Bool}
    {document : Option Bytes}
    (others : ∀ other, other ≠ task.bucket → buckets.get? other = w.buckets.get? other)
    (own : ∀ old, w.tasks.get? id = some old → old.bucket = task.bucket) :
    Apart w ({ w with buckets := buckets, locked := locked }.begin id task document) task.bucket := by
  intro other different
  refine ⟨rfl, others other different, ?_⟩
  rintro ⟨id', task', held, -, same⟩
  refine ⟨id', task', ?_, nofun, same⟩
  have distinct : id' ≠ id := by
    intro equal
    rw [equal] at held
    exact different (same.symm.trans (own task' held))
  rw [begin, BTreeMap.get?_insert, if_neg distinct]
  exact held

theorem get?_insert_ne {ν : Type} (m : BTreeMap String ν) (value : ν) {other : String}
    (different : other ≠ bucket) : (m.insert bucket value).get? other = m.get? other := by
  rw [BTreeMap.get?_insert, if_neg different]

theorem get?_erase_ne {ν : Type} (m : BTreeMap String ν) {other : String} (different : other ≠ bucket) :
    (m.erase bucket).get? other = m.get? other := by
  rw [BTreeMap.get?_erase, if_neg different]

theorem fresh_own (fresh : w.fresh id = true) (old : PolicyTask) (held : w.tasks.get? id = some old) :
    old.bucket = bucket := by
  rw [PolicyWorld.fresh, held] at fresh
  cases fresh

theorem busy_erase {world : PolicyWorld} (same : world.tasks = w.tasks.erase id) (bucket : String) :
    world.Busy none bucket ↔ w.Busy (some id) bucket := by
  constructor
  · rintro ⟨id', task, held, -, own⟩
    rw [same, BTreeMap.get?_erase] at held
    split at held
    · cases held
    · next distinct => exact ⟨id', task, held, fun equal => distinct (Option.some.inj equal), own⟩
  · rintro ⟨id', task, held, distinct, own⟩
    refine ⟨id', task, ?_, nofun, own⟩
    rw [same, BTreeMap.get?_erase, if_neg fun equal => distinct (congrArg some equal)]
    exact held

theorem apart_end (held : w.tasks.get? id = some task) (tasks : after.tasks = w.tasks.erase id)
    (buckets : after.buckets = w.buckets)
    (entries : ∀ other, other ≠ task.bucket →
      after.bucketPolicies.get? other = w.bucketPolicies.get? other) :
    Apart w after task.bucket := by
  intro other different
  refine ⟨entries other different, by rw [buckets], ?_⟩
  rintro ⟨id', task', found, -, own⟩
  rw [busy_erase tasks]
  refine ⟨id', task', found, ?_, own⟩
  intro equal
  cases equal
  cases held.symm.trans found
  exact different own.symm

/-- A request ends well if another one for its bucket goes on, or if the cache agrees with the store. -/
theorem inForce_end (inForce : w.InForce parse) (held : w.tasks.get? id = some task)
    (tasks : after.tasks = w.tasks.erase id) (buckets : after.buckets = w.buckets)
    (entries : ∀ other, other ≠ task.bucket →
      after.bucketPolicies.get? other = w.bucketPolicies.get? other) :
    after.InForce parse ↔ w.Busy (some id) task.bucket ∨
      after.bucketPolicy parse task.bucket = w.storedPolicy parse task.bucket := by
  rw [inForce_iff inForce (apart_end held tasks buckets entries), busy_erase tasks, Classical.or_iff_not_imp_left]
  simp only [storedPolicy, buckets]

theorem bucketPolicy_cached {policy : Option Policy}
    (cached : w.bucketPolicies.get? bucket = some policy) : w.bucketPolicy parse bucket = policy := by
  rw [bucketPolicy, cached]

/-- A request that comes to the cache. -/
theorem inForce_fill {policy : Option Policy} (inForce : w.InForce parse) (traced : w.Traced parse)
    (held : w.tasks.get? id = some task) (carries : task.carries = some policy)
    (tasks : after.tasks = w.tasks.erase id) (buckets : after.buckets = w.buckets)
    (entries : after.bucketPolicies = w.bucketPolicies.insert task.bucket policy) :
    after.InForce parse ↔
      w.Busy (some id) task.bucket ∨ w.Unchanged parse task.bucket (w.noted id) := by
  have cached : after.bucketPolicy parse task.bucket = policy := by
    apply bucketPolicy_cached
    rw [entries, BTreeMap.get?_insert, if_pos rfl]
  have read : policy = (w.noted id).bind parse := traced.carried id task policy held carries
  rw [inForce_end inForce held tasks buckets, cached, Unchanged, ← read]
  · exact or_congr_right eq_comm
  · intro other different
    rw [entries]
    exact get?_insert_ne _ _ different

theorem bucketPolicy_stored_iff (traced : w.Traced parse)
    (cached : after.bucketPolicies = w.bucketPolicies) :
    after.bucketPolicy parse bucket = after.storedPolicy parse bucket ↔
      ((w.bucketPolicies.get? bucket).isSome = true →
        after.storedPolicy parse bucket = (w.origin bucket).bind parse) := by
  rw [bucketPolicy, cached]
  cases entry : w.bucketPolicies.get? bucket with
  | none => exact iff_of_true rfl nofun
  | some policy =>
    rw [← traced.cached bucket policy entry]
    exact ⟨fun same _ => same.symm, fun same => (same rfl).symm⟩

theorem begin_inForce (inForce : w.InForce parse) (task : PolicyTask) {allowed : Bool}
    {buckets : BTreeMap String (Option Bytes)} {locked : Bool} {document : Option Bytes}
    (others : ∀ other, other ≠ task.bucket → buckets.get? other = w.buckets.get? other)
    (fresh : allowed = true → w.fresh id = true) :
    (if allowed then { w with buckets := buckets, locked := locked }.begin id task document
      else w).InForce parse := by
  split
  · next passed =>
      exact inForce_of_busy inForce (apart_begin task others (fresh_own (fresh passed)))
        (busy_begin _ _ _ _)
  · exact inForce

theorem lookUp_inForce (inForce : w.InForce parse) :
    (w.step parse (.lookUp id bucket)).InForce parse := by
  refine begin_inForce inForce (.missed bucket) (fun _ _ => rfl) fun allowed => ?_
  exact (Bool.and_eq_true_iff.mp allowed).1

theorem read_inForce (inForce : w.InForce parse) (fails : Bool) :
    (w.step parse (.read id fails)).InForce parse := by
  rw [step]
  split
  · next bucket held =>
      split
      · exact inForce
      · refine inForce_of_busy inForce (apart_begin _ (fun _ _ => rfl) ?_) (busy_begin _ _ _ _)
        intro old found
        cases held.symm.trans found
        rfl
  · exact inForce

theorem put_inForce (inForce : w.InForce parse) (body : Bytes) (fails : Bool) :
    (w.step parse (.put id bucket body fails)).InForce parse := by
  rw [step]
  split
  · next policy stored parsed =>
      refine begin_inForce inForce (.committed bucket policy)
        (fun _ different => get?_insert_ne _ _ different) fun allowed => ?_
      simp only [Bool.and_eq_true] at allowed
      exact allowed.1.1
  · exact inForce

theorem find_inForce (inForce : w.InForce parse) :
    (w.step parse (.find id bucket)).InForce parse := by
  refine begin_inForce inForce (.found bucket) (fun _ _ => rfl) fun allowed => ?_
  simp only [Bool.and_eq_true] at allowed
  exact allowed.1.1

theorem create_inForce (inForce : w.InForce parse) (fails : Bool) :
    (w.step parse (.create id bucket fails)).InForce parse := by
  refine begin_inForce inForce (.removing bucket) (fun _ different => get?_insert_ne _ _ different)
    fun allowed => ?_
  simp only [Bool.and_eq_true] at allowed
  exact allowed.1.1.1

theorem deleteBucket_inForce (inForce : w.InForce parse) (fails : Bool) :
    (w.step parse (.deleteBucket id bucket fails)).InForce parse := by
  refine begin_inForce inForce (.removing bucket) (fun _ different => get?_erase_ne _ different)
    fun allowed => ?_
  simp only [Bool.and_eq_true] at allowed
  exact allowed.1.1.1

theorem delete_inForce_iff (inForce : w.InForce parse) (traced : w.Traced parse) (fails : Bool) :
    (w.step parse (.delete id fails)).InForce parse ↔ w.Undisturbed parse (.delete id fails) := by
  rw [step, PolicyWorld.Undisturbed]
  split
  · next bucket held =>
      by_cases locked : w.locked = true
      · rw [if_pos locked]
        refine iff_of_true inForce ?_
        rw [locked]
        intro refused
        cases refused.1
      rw [if_neg locked]
      rw [Bool.not_eq_true] at locked
      by_cases fails : (fails || (w.buckets.get? bucket).isNone) = true
      · rw [if_pos fails, locked, fails]
        refine Iff.trans (inForce_end inForce held rfl rfl fun _ _ => rfl) ?_
        refine (or_congr_right (bucketPolicy_stored_iff traced rfl)).trans ?_
        exact ⟨fun whole _ => whole, fun whole => whole ⟨rfl, rfl⟩⟩
      · rw [if_neg fails]
        refine iff_of_true ?_ ?_
        · refine inForce_of_busy inForce
            (apart_begin _ (fun _ different => get?_insert_ne _ _ different) ?_) (busy_begin _ _ _ _)
          intro old found
          cases held.symm.trans found
          rfl
        · intro failed
          exact absurd failed.2 fails
  · exact iff_of_true inForce trivial

theorem finish_inForce_iff (inForce : w.InForce parse) (traced : w.Traced parse) :
    (w.step parse (.finish id)).InForce parse ↔ w.Undisturbed parse (.finish id) := by
  rw [PolicyWorld.Undisturbed]
  cases held : w.tasks.get? id with
  | none =>
    simp only [step, held]
    exact iff_of_true inForce nofun
  | some task =>
    have only : (∀ other, some task = some other → other.carries.isSome = true →
        w.Busy (some id) other.bucket ∨ w.Unchanged parse other.bucket (w.noted id)) ↔
        (task.carries.isSome = true →
          w.Busy (some id) task.bucket ∨ w.Unchanged parse task.bucket (w.noted id)) := by
      constructor
      · intro all
        exact all task rfl
      · intro own other same
        cases same
        exact own
    rw [only]
    cases task with
    | missed | found =>
      simp only [step, held, ready]
      exact iff_of_true inForce nofun
    | parsed | committed | deleted =>
      simp only [step, held, ready, if_true]
      exact Iff.trans (inForce_fill inForce traced held rfl rfl rfl rfl)
        ⟨fun whole _ => whole, fun whole => whole rfl⟩
    | removing bucket =>
      simp only [step, held, ready, if_true]
      refine Iff.trans (inForce_end inForce held rfl rfl fun _ different =>
        get?_erase_ne _ different) (iff_of_true (.inr ?_) nofun)
      simp only [bucketPolicy, storedPolicy, finishTask, PolicyTask.bucket, BTreeMap.get?_erase,
        if_true]

theorem applyRecord_inForce_iff (inForce : w.InForce parse) (traced : w.Traced parse)
    (row : Option (Option Bytes)) :
    (w.step parse (.applyRecord bucket row)).InForce parse ↔
      w.Undisturbed parse (.applyRecord bucket row) := by
  have apart : Apart w (w.step parse (.applyRecord bucket row)) bucket := by
    intro other different
    cases row with
    | none => exact ⟨rfl, get?_erase_ne _ different, id⟩
    | some row => exact ⟨rfl, get?_insert_ne _ _ different, id⟩
  have stored : (w.step parse (.applyRecord bucket row)).storedPolicy parse bucket =
      row.join.bind parse := by
    cases row with
    | none => simp [step, storedPolicy, BTreeMap.get?_erase]
    | some row => simp [step, storedPolicy, BTreeMap.get?_insert]
  have cached : (w.step parse (.applyRecord bucket row)).bucketPolicies = w.bucketPolicies := by
    cases row <;> rfl
  have busy : (w.step parse (.applyRecord bucket row)).Busy none bucket ↔ w.Busy none bucket := by
    cases row <;> exact Iff.rfl
  rw [inForce_iff inForce apart, PolicyWorld.Undisturbed, busy, Classical.or_iff_not_imp_left]
  refine imp_congr_right fun quiet => ?_
  rw [bucketPolicy_stored_iff traced cached, stored]

/-- One step of a request, or one record, keeps the policies in force exactly if it is undisturbed. -/
theorem step_inForce_iff (inForce : w.InForce parse) (traced : w.Traced parse) (next : PolicyStep) :
    (w.step parse next).InForce parse ↔ w.Undisturbed parse next := by
  cases next with
  | lookUp id bucket => exact iff_of_true (lookUp_inForce inForce) trivial
  | read id fails => exact iff_of_true (read_inForce inForce fails) trivial
  | put id bucket body fails => exact iff_of_true (put_inForce inForce body fails) trivial
  | find id bucket => exact iff_of_true (find_inForce inForce) trivial
  | delete id fails => exact delete_inForce_iff inForce traced fails
  | create id bucket fails => exact iff_of_true (create_inForce inForce fails) trivial
  | deleteBucket id bucket fails => exact iff_of_true (deleteBucket_inForce inForce fails) trivial
  | finish id => exact finish_inForce_iff inForce traced
  | applyRecord bucket row => exact applyRecord_inForce_iff inForce traced row

theorem traced_begin (traced : w.Traced parse) {buckets : BTreeMap String (Option Bytes)}
    {locked : Bool} {document : Option Bytes}
    (reads : ∀ policy, task.carries = some policy → policy = document.bind parse) :
    ({ w with buckets := buckets, locked := locked }.begin id task document).Traced parse := by
  refine ⟨?_, traced.cached⟩
  intro id' task' policy held carries
  simp only [begin, BTreeMap.get?_insert] at held
  simp only [begin, Function.update_apply]
  split at held
  · next same =>
      cases held
      rw [if_pos same]
      exact reads policy carries
  · next distinct =>
      rw [if_neg distinct]
      exact traced.carried id' task' policy held carries

theorem begin_traced (traced : w.Traced parse) {allowed : Bool}
    {buckets : BTreeMap String (Option Bytes)} {locked : Bool} (plain : task.carries = none) :
    (if allowed then { w with buckets := buckets, locked := locked }.begin id task
      else w).Traced parse := by
  split
  · refine traced_begin traced fun policy carries => ?_
    cases plain.symm.trans carries
  · exact traced

theorem traced_erase (traced : w.Traced parse) {bucketPolicies : BTreeMap String (Option Policy)}
    {origin : String → Option Bytes} {locked : Bool}
    (cached : ∀ bucket policy, bucketPolicies.get? bucket = some policy →
      policy = (origin bucket).bind parse) :
    (PolicyWorld.mk w.buckets bucketPolicies (w.tasks.erase id) locked w.noted origin).Traced parse := by
  refine ⟨?_, cached⟩
  intro id' task' policy held carries
  simp only [BTreeMap.get?_erase] at held
  split at held
  · cases held
  · exact traced.carried id' task' policy held carries

theorem traced_fill (traced : w.Traced parse) {policy : Option Policy}
    (held : w.tasks.get? id = some task) (carries : task.carries = some policy) :
    (fill { w with tasks := w.tasks.erase id } id task.bucket policy).Traced parse := by
  apply traced_erase traced
  intro other found cached
  rw [BTreeMap.get?_insert] at cached
  rw [Function.update_apply]
  split at cached
  · next same =>
      cases cached
      rw [if_pos same]
      exact traced.carried id task policy held carries
  · next different =>
      rw [if_neg different]
      exact traced.cached other found cached

theorem finish_traced (traced : w.Traced parse) : (w.step parse (.finish id)).Traced parse := by
  rw [step]
  split
  · next task held =>
      split
      · cases task with
        | parsed bucket policy => exact traced_fill traced held rfl
        | committed bucket policy => exact traced_fill traced held rfl
        | deleted bucket => exact traced_fill traced held rfl
        | removing bucket =>
          apply traced_erase traced
          intro other found cached
          rw [BTreeMap.get?_erase] at cached
          split at cached
          · cases cached
          · exact traced.cached other found cached
        | missed bucket => exact traced_erase traced traced.cached
        | found bucket => exact traced_erase traced traced.cached
      · exact traced
  · exact traced

theorem step_traced (traced : w.Traced parse) (next : PolicyStep) :
    (w.step parse next).Traced parse := by
  cases next with
  | lookUp id bucket => exact begin_traced traced rfl
  | read id fails =>
    rw [step]
    split
    · split
      · exact traced
      · apply traced_begin traced
        intro policy carries
        cases carries
        cases fails <;> rfl
    · exact traced
  | put id bucket body fails =>
    rw [step]
    split
    · next policy stored parsed =>
        split
        · apply traced_begin traced
          intro carried carries
          cases carries
          exact parsed.symm
        · exact traced
    · exact traced
  | find id bucket => exact begin_traced traced rfl
  | delete id fails =>
    rw [step]
    split
    · split
      · exact traced
      · split
        · exact traced_erase traced traced.cached
        · apply traced_begin traced
          intro policy carries
          cases carries
          rfl
    · exact traced
  | create id bucket fails => exact begin_traced traced rfl
  | deleteBucket id bucket fails => exact begin_traced traced rfl
  | finish id => exact finish_traced traced
  | applyRecord bucket row => cases row <;> exact ⟨traced.carried, traced.cached⟩

theorem inForce_serving (buckets : BTreeMap String (Option Bytes)) :
    (serving buckets).InForce parse := by
  intro bucket quiet
  have none : (serving buckets).bucketPolicies.get? bucket = none := rfl
  rw [bucketPolicy, none]

theorem traced_serving (buckets : BTreeMap String (Option Bytes)) :
    (serving buckets).Traced parse := by
  refine ⟨?_, ?_⟩
  · intro id task policy held
    cases held
  · intro bucket policy cached
    cases cached

end Steps

def barringPolicy : Policy where
  statements := [{
    effect := .deny
    principal := some .any
    actions := ["s3:*"]
    resources := ["*"]
    conditions := []
    normalized := everyAction_normalized }]

end FastS3.S3
