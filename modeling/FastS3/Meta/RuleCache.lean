import FastS3.Meta.Applied

namespace FastS3.Meta

open FastS3.Core Data

/-! The rule caches against the rules in the store.

A cached list is dropped only by the operations that name the rules.  The rows of a
bucket's rules are also removed with the bucket, replaced by an import and cleared by
a rebuild.
-/

inductive RuleKind where
  | lifecycle
  | notification
deriving Repr, DecidableEq

namespace RuleKind

abbrev Rule : RuleKind → Type
  | .lifecycle => LifecycleRule
  | .notification => NotificationRule

def key : RuleKind → String → Key
  | .lifecycle => .lifecycleRules
  | .notification => .notificationRules

def rewrites (kind : RuleKind) (bucket : String) (op : Op) : Bool :=
  match kind, op with
  | .lifecycle, .lifecycleRulesReplace name _ | .lifecycle, .lifecycleRulesDelete name
  | .notification, .notificationRulesReplace name _
  | .notification, .notificationRulesDelete name => name = bucket
  | _, _ => false

end RuleKind

namespace MetaStore

def cached (store : MetaStore) : (kind : RuleKind) → String → Option (List kind.Rule)
  | .lifecycle => store.lifecycleCache
  | .notification => store.notificationCache

def stored (rows : Store) : (kind : RuleKind) → String → List kind.Rule
  | .lifecycle, bucket => (rows (.lifecycleRules bucket)).values
  | .notification, bucket => (rows (.notificationRules bucket)).values

def rulesOf (store : MetaStore) : (kind : RuleKind) → String → List kind.Rule
  | .lifecycle, bucket => (store.getLifecycleRules bucket).1
  | .notification, bucket => (store.getNotificationRules bucket).1

def Fresh (store : MetaStore) : Prop :=
  ∀ kind bucket rules, store.cached kind bucket = some rules → rules = stored store.rows kind bucket

theorem Fresh.rulesOf {store : MetaStore} (fresh : store.Fresh) (kind : RuleKind) (bucket : String) :
    store.rulesOf kind bucket = stored store.rows kind bucket := by
  cases kind with
  | lifecycle =>
    cases hit : store.lifecycleCache bucket with
    | none => simp only [MetaStore.rulesOf, getLifecycleRules, hit, stored]
    | some rules =>
      simp only [MetaStore.rulesOf, getLifecycleRules, hit]
      exact fresh .lifecycle bucket rules hit
  | notification =>
    cases hit : store.notificationCache bucket with
    | none => simp only [MetaStore.rulesOf, getNotificationRules, hit, stored]
    | some rules =>
      simp only [MetaStore.rulesOf, getNotificationRules, hit]
      exact fresh .notification bucket rules hit

theorem Fresh.read {store : MetaStore} (fresh : store.Fresh) (bucket : String) :
    (store.getLifecycleRules bucket).2.Fresh ∧ (store.getNotificationRules bucket).2.Fresh := by
  constructor
  · cases hit : store.lifecycleCache bucket with
    | some rules =>
      simp only [getLifecycleRules, hit]
      exact fresh
    | none =>
      simp only [getLifecycleRules, hit]
      intro kind other rules found
      cases kind with
      | notification => exact fresh .notification other rules found
      | lifecycle =>
        by_cases same : other = bucket
        · subst same
          simp only [cached, Function.update_self, Option.some.injEq] at found
          exact found.symm
        · simp only [cached, Function.update_of_ne same] at found
          exact fresh .lifecycle other rules found
  · cases hit : store.notificationCache bucket with
    | some rules =>
      simp only [getNotificationRules, hit]
      exact fresh
    | none =>
      simp only [getNotificationRules, hit]
      intro kind other rules found
      cases kind with
      | lifecycle => exact fresh .lifecycle other rules found
      | notification =>
        by_cases same : other = bucket
        · subst same
          simp only [cached, Function.update_self, Option.some.injEq] at found
          exact found.symm
        · simp only [cached, Function.update_of_ne same] at found
          exact fresh .notification other rules found

variable {kind : RuleKind} {before : Store} {bucket : String} {seq : Nat} {replay : Bool}

theorem stored_congr {after : Store} (same : after (kind.key bucket) = before (kind.key bucket)) :
    stored after kind bucket = stored before kind bucket := by
  cases kind with
  | lifecycle => exact congrArg BTreeMap.values same
  | notification => exact congrArg BTreeMap.values same

theorem stored_absent {rows : Store}
    (absent : rows (kind.key bucket) = Value.absent (kind.key bucket)) :
    stored rows kind bucket = [] := by
  cases kind with
  | lifecycle => exact congrArg BTreeMap.values absent
  | notification => exact congrArg BTreeMap.values absent

theorem bucketDelete_rules {name : String} {after : Store}
    (run : applyOp replay seq (.bucketDelete name) before = .ok ((), after)) (kind : RuleKind) :
    after (kind.key name) = Value.absent (kind.key name) := by
  obtain ⟨_, _, _, rest⟩ := Tx.bind_eq_ok.mp run
  obtain ⟨_, _, _, rest⟩ := Tx.bind_eq_ok.mp rest
  obtain ⟨_, _, _, rest⟩ := Tx.bind_eq_ok.mp rest
  obtain ⟨_, _, _, rest⟩ := Tx.bind_eq_ok.mp rest
  obtain ⟨_, _, lifecycle, rest⟩ := Tx.bind_eq_ok.mp rest
  obtain ⟨_, _, notification, rest⟩ := Tx.bind_eq_ok.mp rest
  cases tremove_eq_ok.mp lifecycle
  cases tremove_eq_ok.mp notification
  cases tremove_eq_ok.mp rest
  cases kind with
  | lifecycle => simp [RuleKind.key]
  | notification => simp [RuleKind.key]

/-- Besides the operations that drop the cached list, only the deletion of the bucket
changes its rules: it removes them. -/
theorem applyOp_rules {op : Op} {after : Store}
    (run : applyOp replay seq op before = .ok ((), after))
    (keeps : kind.rewrites bucket op = false) :
    after (kind.key bucket) = before (kind.key bucket) ∨
      op = .bucketDelete bucket ∧ after (kind.key bucket) = Value.absent (kind.key bucket) := by
  by_cases touched : op.touches seq (kind.key bucket)
  · have deleted : op = .bucketDelete bucket := by
      cases kind with
      | lifecycle =>
        cases op <;> simp [Op.touches, RuleKind.key, RuleKind.rewrites] at touched keeps ⊢
        all_goals grind
      | notification =>
        cases op <;> simp [Op.touches, RuleKind.key, RuleKind.rewrites] at touched keeps ⊢
        all_goals grind
    subst deleted
    exact .inr ⟨rfl, bucketDelete_rules run kind⟩
  · exact .inl ((applyOp_within replay seq op).frame run _ touched)

theorem forM_rules {ops : List Op} {after : Store}
    (run : ops.forM (applyOp replay seq) before = .ok ((), after))
    (keeps : ∀ op ∈ ops, kind.rewrites bucket op = false) :
    after (kind.key bucket) = before (kind.key bucket) ∨
      .bucketDelete bucket ∈ ops ∧ after (kind.key bucket) = Value.absent (kind.key bucket) := by
  apply Tx.forM_keeps (P := fun rows => rows (kind.key bucket) = before (kind.key bucket) ∨
    .bucketDelete bucket ∈ ops ∧ rows (kind.key bucket) = Value.absent (kind.key bucket)) _ run
    (.inl rfl)
  intro op member start middle ran held
  rcases applyOp_rules ran (keeps op member) with same | ⟨deleted, removed⟩
  · rw [same]
    exact held
  · exact .inr ⟨deleted ▸ member, removed⟩

theorem cached_invalidate (store : MetaStore) (op : Op) (kind : RuleKind) (bucket : String) :
    (store.invalidate op).cached kind bucket =
      if kind.rewrites bucket op then none else store.cached kind bucket := by
  cases kind with
  | lifecycle =>
    cases op <;> simp [invalidate, cached, RuleKind.rewrites, Function.update_apply, eq_comm]
  | notification =>
    cases op <;> simp [invalidate, cached, RuleKind.rewrites, Function.update_apply, eq_comm]

theorem cached_invalidateConfCaches {store : MetaStore} {ops : List Op} {rules : List kind.Rule}
    (found : (store.invalidateConfCaches ops).cached kind bucket = some rules) :
    store.cached kind bucket = some rules ∧ ∀ op ∈ ops, kind.rewrites bucket op = false := by
  unfold invalidateConfCaches at found
  induction ops generalizing store with
  | nil => exact ⟨found, fun op member => by cases member⟩
  | cons op rest ih =>
    rw [List.foldl_cons] at found
    obtain ⟨before, later⟩ := ih found
    rw [cached_invalidate] at before
    split at before
    · cases before
    · next keeps =>
        refine ⟨before, ?_⟩
        intro other member
        rcases List.mem_cons.mp member with rfl | inside
        · simpa using keeps
        · exact later other inside

inductive Call where
  | commit (fate : Fate) (now : Int) (ops : List Op)
  | applyReplRecord (fate : Fate) (gtid : Gtid) (record : ReplRecord)
  | importReplBatch (fate : Fate) (entries : List ImportEntry) (alloc : Option AllocDraft)
      (importSeq : Nat)
  | clearForRebuild (reached : Nat)
  | getLifecycleRules (bucket : String)
  | getNotificationRules (bucket : String)

def step (config : MetaConfig) (store : MetaStore) : Call → MetaStore
  | .commit fate now ops => (store.commit config fate now ops).2
  | .applyReplRecord fate gtid record => (store.applyReplRecord config fate gtid record).2
  | .importReplBatch fate entries alloc importSeq =>
    (store.importReplBatch fate entries alloc importSeq).2
  | .clearForRebuild reached => store.clearForRebuild reached
  | .getLifecycleRules bucket => (store.getLifecycleRules bucket).2
  | .getNotificationRules bucket => (store.getNotificationRules bucket).2

def run (config : MetaConfig) (store : MetaStore) (calls : List Call) : MetaStore :=
  calls.foldl (step config) store

/-- The batch leaves no cached list behind the store: it deletes no bucket whose rules
are cached without naming the rules, and when the flush fails, which skips the
invalidation, it changes no cached rules at all. -/
def BatchSafe (store : MetaStore) (fate : Fate) (ops : List Op) : Prop :=
  ∀ kind bucket rules, store.cached kind bucket = some rules →
    match fate with
    | .refused _ => True
    | .unflushed _ =>
      (∀ op ∈ ops, kind.rewrites bucket op = false) ∧
        (.bucketDelete bucket ∈ ops → rules = [])
    | .kept _ =>
      (∀ op ∈ ops, kind.rewrites bucket op = false) → .bucketDelete bucket ∈ ops → rules = []

/-- The imported rule is not one of a bucket with cached rules, or the store holds it. -/
def EntrySafe (store : MetaStore) : ImportEntry → Prop
  | .lifecycleRule bucket id rule =>
    store.lifecycleCache bucket = none ∨
      (store.rows (.lifecycleRules bucket)).get? id = some rule
  | .notificationRule bucket id rule =>
    store.notificationCache bucket = none ∨
      (store.rows (.notificationRules bucket)).get? id = some rule
  | _ => True

/-- The families that a rebuild has cleared hold no rules of a bucket with a cached,
non-empty list. -/
def ClearSafe (store : MetaStore) (reached : Nat) : Prop :=
  ∀ kind bucket rules, store.cached kind bucket = some rules →
    (wipeOrder.take reached).any (fun family => family (kind.key bucket)) = true → rules = []

def Safe (config : MetaConfig) (store : MetaStore) : Call → Prop
  | .commit fate now ops =>
    (∃ e, applyOps (.commit config.replBinlog now) ops store.rows = .error e) ∨
      store.BatchSafe fate ops
  | .applyReplRecord fate gtid record =>
    (∀ rows, replApplyTx gtid record store.rows ≠ .ok (.applied, rows)) ∨
      store.BatchSafe fate record.ops
  | .importReplBatch _ entries _ _ => ∀ entry ∈ entries, store.EntrySafe entry
  | .clearForRebuild reached => store.ClearSafe reached
  | .getLifecycleRules _ | .getNotificationRules _ => True

def SafeRun (config : MetaConfig) : MetaStore → List Call → Prop
  | _, [] => True
  | store, call :: rest => store.Safe config call ∧ SafeRun config (store.step config call) rest

theorem key_plain (kind : RuleKind) (bucket : String) : (kind.key bucket).progress = false := by
  cases kind with
  | lifecycle => rfl
  | notification => rfl

theorem rules_of_batch {ops : List Op} {middle after : Store}
    (ran : ops.forM (applyOp replay seq) before = .ok ((), middle))
    (rows : ∀ key, key.progress = false → after key = middle key)
    (keeps : ∀ op ∈ ops, kind.rewrites bucket op = false) :
    stored after kind bucket = stored before kind bucket ∨
      .bucketDelete bucket ∈ ops ∧ stored after kind bucket = [] := by
  have same : stored after kind bucket = stored middle kind bucket :=
    stored_congr (rows _ (key_plain kind bucket))
  rw [same]
  rcases forM_rules ran keeps with kept | ⟨deleted, removed⟩
  · exact .inl (stored_congr kept)
  · exact .inr ⟨deleted, stored_absent removed⟩

theorem settle_stored (config : MetaConfig) (store : MetaStore) (ops : List Op) (trimmed : Bool)
    (kind : RuleKind) (bucket : String) :
    stored (store.settle config ops trimmed).rows kind bucket = stored store.rows kind bucket := by
  apply stored_congr
  apply settle_frame
  cases kind <;> exact Key.noConfusion

theorem settle_cached (config : MetaConfig) (store : MetaStore) (ops : List Op) (trimmed : Bool)
    (kind : RuleKind) (bucket : String) :
    (store.settle config ops trimmed).cached kind bucket =
      (store.invalidateConfCaches ops).cached kind bucket := by
  unfold settle
  dsimp only
  split
  · cases kind <;> rfl
  · rfl

theorem cached_withRows (store : MetaStore) (rows : Store) (kind : RuleKind) (bucket : String) :
    ({ store with rows := rows } : MetaStore).cached kind bucket = store.cached kind bucket := by
  cases kind with
  | lifecycle => rfl
  | notification => rfl

section Batch

variable {store : MetaStore} {ops : List Op} {after : Store}

def Batched (store : MetaStore) (ops : List Op) (after : Store) : Prop :=
  ∀ kind bucket, (∀ op ∈ ops, kind.rewrites bucket op = false) →
    stored after kind bucket = stored store.rows kind bucket ∨
      .bucketDelete bucket ∈ ops ∧ stored after kind bucket = []

theorem Fresh.kept (fresh : store.Fresh) (config : MetaConfig) {trimmed : Bool}
    (batched : store.Batched ops after) (safe : store.BatchSafe (.kept trimmed) ops) :
    (settle config { store with rows := after } ops trimmed).Fresh := by
  intro kind bucket rules found
  rw [settle_cached] at found
  obtain ⟨before, keeps⟩ := cached_invalidateConfCaches found
  rw [cached_withRows] at before
  rw [settle_stored]
  rcases batched kind bucket keeps with same | ⟨deleted, emptied⟩
  · exact (fresh kind bucket rules before).trans same.symm
  · exact (safe kind bucket rules before keeps deleted).trans emptied.symm

theorem Fresh.unflushed (fresh : store.Fresh) {message : String}
    (batched : store.Batched ops after) (safe : store.BatchSafe (.unflushed message) ops) :
    ({ store with rows := after } : MetaStore).Fresh := by
  intro kind bucket rules found
  rw [cached_withRows] at found
  obtain ⟨keeps, deletes⟩ := safe kind bucket rules found
  rcases batched kind bucket keeps with same | ⟨deleted, emptied⟩
  · exact (fresh kind bucket rules found).trans same.symm
  · exact (deletes deleted).trans emptied.symm

end Batch

variable {fate : Fate} {config : MetaConfig}

theorem Fresh.commit {store : MetaStore} (fresh : store.Fresh) {now : Int} {ops : List Op}
    (safe : store.Safe config (.commit fate now ops)) :
    (store.commit config fate now ops).2.Fresh := by
  unfold MetaStore.commit
  cases outcome : applyOps (.commit config.replBinlog now) ops store.rows with
  | error e => exact fresh
  | ok result =>
    rcases safe with ⟨e, failed⟩ | safe
    · rw [outcome] at failed
      cases failed
    · obtain ⟨middle, ran, rows⟩ := applyOps_rows outcome
      have batched : store.Batched ops result.2 := fun kind bucket keeps =>
        rules_of_batch ran rows keeps
      cases fate with
      | refused message => exact fresh
      | unflushed message => exact fresh.unflushed batched safe
      | kept trimmed => exact fresh.kept config batched safe

theorem Fresh.applyReplRecord {store : MetaStore} (fresh : store.Fresh) {gtid : Gtid}
    {record : ReplRecord} (safe : store.Safe config (.applyReplRecord fate gtid record)) :
    (store.applyReplRecord config fate gtid record).2.Fresh := by
  unfold MetaStore.applyReplRecord
  dsimp only
  split
  · exact fresh
  · cases outcome : replApplyTx gtid record store.rows with
    | error e => exact fresh
    | ok result =>
      obtain ⟨kind, after⟩ := result
      cases kind with
      | skippedDuplicate => exact fresh
      | applied =>
        rcases safe with never | safe
        · exact absurd outcome (never after)
        · obtain ⟨_, start, middle, began, ran, landed⟩ := replApplyTx_applied outcome
          have batched : store.Batched record.ops after := by
            intro kind bucket keeps
            have same : stored start kind bucket = stored store.rows kind bucket :=
              stored_congr (advanceEpoch_frame began (by cases kind <;> exact Key.noConfusion))
            rw [← same]
            exact rules_of_batch ran landed.rows keeps
          cases fate with
          | refused message => exact fresh
          | unflushed message => exact fresh.unflushed batched safe
          | kept trimmed => exact fresh.kept config batched safe

theorem importEntry_rules {store : MetaStore} {entry : ImportEntry} {before after : Store}
    (run : importEntry entry before = .ok ((), after)) (safe : store.EntrySafe entry)
    {kind : RuleKind} {bucket : String} {rules : List kind.Rule}
    (found : store.cached kind bucket = some rules)
    (same : before (kind.key bucket) = store.rows (kind.key bucket)) :
    after (kind.key bucket) = store.rows (kind.key bucket) := by
  by_cases written : kind.key bucket = importKey entry
  · cases kind with
    | lifecycle | notification =>
      cases entry <;> simp only [RuleKind.key, importKey, reduceCtorEq] at written
      next name id rule =>
        cases written
        rcases safe with uncached | held
        · rw [cached, uncached] at found
          cases found
        · have rest := tget_bind_ok.mp run
          cases tinsert_eq_ok.mp rest
          simp only [RuleKind.key, Function.update_self] at same ⊢
          rw [same]
          exact BTreeMap.insert_of_get? held
  · rw [(importEntry_within entry).frame run _ written]
    exact same

theorem mergeAlloc_frame {alloc : Option AllocDraft} {seq : Nat} {before after : Store}
    (run : mergeAlloc alloc seq before = .ok ((), after)) (kind : RuleKind) (bucket : String) :
    after (kind.key bucket) = before (kind.key bucket) := by
  have apart : kind.key bucket ≠ .alloc seq ∧ kind.key bucket ≠ .txn seq := by
    cases kind with
    | lifecycle => exact ⟨Key.noConfusion, Key.noConfusion⟩
    | notification => exact ⟨Key.noConfusion, Key.noConfusion⟩
  cases alloc with
  | none =>
    cases Tx.pure_eq_ok.mp run
    rfl
  | some draft =>
    simp only [mergeAlloc] at run
    split at run
    · cases Tx.pure_eq_ok.mp run
      rfl
    · have rest := tget_bind_ok.mp run
      replace rest := tinsert_bind_ok.mp rest
      cases tinsert_eq_ok.mp rest
      rw [Function.update_of_ne apart.2, Function.update_of_ne apart.1]

theorem Fresh.importReplBatch {store : MetaStore} (fresh : store.Fresh) {entries : List ImportEntry}
    {alloc : Option AllocDraft} {importSeq : Nat}
    (safe : ∀ entry ∈ entries, store.EntrySafe entry) :
    (store.importReplBatch fate entries alloc importSeq).2.Fresh := by
  unfold MetaStore.importReplBatch
  cases outcome : importTx entries alloc importSeq store.rows with
  | error e => exact fresh
  | ok result =>
    have imported : ({ store with rows := result.2 } : MetaStore).Fresh := by
      intro kind bucket rules found
      rw [cached_withRows] at found
      obtain ⟨_, middle, ran, merged⟩ := Tx.bind_eq_ok.mp outcome
      have same : middle (kind.key bucket) = store.rows (kind.key bucket) := by
        apply Tx.forM_keeps
          (P := fun rows => rows (kind.key bucket) = store.rows (kind.key bucket)) _ ran rfl
        intro entry member start next wrote held
        exact importEntry_rules wrote (safe entry member) found held
      rw [fresh kind bucket rules found]
      exact (stored_congr ((mergeAlloc_frame merged kind bucket).trans same)).symm
    cases fate with
    | refused message => exact fresh
    | unflushed message => exact imported
    | kept trimmed => exact imported

theorem foldl_wipe (families : List (Key → Bool)) (rows : Store) (key : Key) :
    families.foldl (fun rows family => wipe family rows) rows key =
      if families.any (fun family => family key) then Value.absent key else rows key := by
  induction families generalizing rows with
  | nil => rfl
  | cons family rest ih =>
    rw [List.foldl_cons, ih, List.any_cons]
    unfold wipe
    cases rest.any (fun family => family key) with
    | true => simp
    | false => simp

theorem Fresh.clearForRebuild {store : MetaStore} (fresh : store.Fresh) {reached : Nat}
    (safe : store.ClearSafe reached) : (store.clearForRebuild reached).Fresh := by
  intro kind bucket rules found
  rw [MetaStore.clearForRebuild, cached_withRows] at found
  have row := foldl_wipe (wipeOrder.take reached) store.rows (kind.key bucket)
  by_cases cleared : (wipeOrder.take reached).any (fun family => family (kind.key bucket)) = true
  · rw [if_pos cleared] at row
    rw [safe kind bucket rules found cleared]
    exact (stored_absent row).symm
  · rw [if_neg cleared] at row
    rw [fresh kind bucket rules found]
    exact (stored_congr row).symm

theorem Fresh.step {store : MetaStore} (fresh : store.Fresh) {config : MetaConfig} {call : Call}
    (safe : store.Safe config call) : (store.step config call).Fresh := by
  cases call with
  | commit fate now ops => exact fresh.commit safe
  | applyReplRecord fate gtid record => exact fresh.applyReplRecord safe
  | importReplBatch fate entries alloc importSeq => exact fresh.importReplBatch safe
  | clearForRebuild reached => exact fresh.clearForRebuild safe
  | getLifecycleRules bucket => exact (fresh.read bucket).1
  | getNotificationRules bucket => exact (fresh.read bucket).2

theorem Fresh.run {store : MetaStore} (fresh : store.Fresh) {calls : List Call}
    (safe : SafeRun config store calls) : (store.run config calls).Fresh := by
  induction calls generalizing store with
  | nil => exact fresh
  | cons call rest ih => exact ih (fresh.step safe.1) safe.2

/-- In a run whose steps leave no cached list behind, every read of a bucket's rules
returns the rules under its keys. -/
theorem rules_coherent (config : MetaConfig) (rows : Store) (calls : List Call)
    (safe : SafeRun config (opened rows) calls) (bucket : String) :
    (((opened rows).run config calls).getLifecycleRules bucket).1 =
        (((opened rows).run config calls).rows (.lifecycleRules bucket)).values ∧
      (((opened rows).run config calls).getNotificationRules bucket).1 =
        (((opened rows).run config calls).rows (.notificationRules bucket)).values := by
  have start : (opened rows).Fresh := by
    intro kind name rules found
    cases kind with
    | lifecycle => cases found
    | notification => cases found
  have fresh := start.run safe
  exact ⟨fresh.rulesOf .lifecycle bucket, fresh.rulesOf .notification bucket⟩

def sampleRule : LifecycleRule :=
  { id := "expire", status := .enabled, filter := { namePrefix := "logs/" },
    expiration := some { days := some 1 } }

def sampleConfig : MetaConfig := { replBinlog := true, eventQueueMax := 100 }

/-- A bucket gets a rule, the rule is read and then replaced by none. -/
theorem rules_coherent_replaced :
    ((opened Store.empty).run sampleConfig
        [.commit (.kept true) 0 [.bucketPut "photos" .created none],
         .commit (.kept true) 0 [.lifecycleRulesReplace "photos" [sampleRule]],
         .getLifecycleRules "photos",
         .commit (.kept true) 0 [.lifecycleRulesReplace "photos" []]]).rulesOf .lifecycle "photos" =
      [] := by
  have safe : SafeRun sampleConfig (opened Store.empty)
      [.commit (.kept true) 0 [.bucketPut "photos" .created none],
       .commit (.kept true) 0 [.lifecycleRulesReplace "photos" [sampleRule]],
       .getLifecycleRules "photos",
       .commit (.kept true) 0 [.lifecycleRulesReplace "photos" []]] := by
    refine ⟨.inr ?_, .inr ?_, trivial, .inr ?_, trivial⟩
    all_goals
      intro kind bucket rules _ _ deleted
      simp at deleted
  exact (rules_coherent sampleConfig Store.empty _ safe "photos").1.trans (by decide +kernel)

/-- The rules of a deleted bucket come back with the next bucket of its name. -/
theorem rules_of_deleted_bucket :
    ((opened Store.empty).run sampleConfig
        [.commit (.kept true) 0 [.bucketPut "photos" .created none],
         .commit (.kept true) 0 [.lifecycleRulesReplace "photos" [sampleRule]],
         .getLifecycleRules "photos",
         .commit (.kept true) 0 [.bucketDelete "photos"],
         .commit (.kept true) 0 [.bucketPut "photos" .created none]]).rulesOf
          .lifecycle "photos" = [sampleRule] ∧
      stored ((opened Store.empty).run sampleConfig
        [.commit (.kept true) 0 [.bucketPut "photos" .created none],
         .commit (.kept true) 0 [.lifecycleRulesReplace "photos" [sampleRule]],
         .getLifecycleRules "photos",
         .commit (.kept true) 0 [.bucketDelete "photos"],
         .commit (.kept true) 0 [.bucketPut "photos" .created none]]).rows
          .lifecycle "photos" = [] := by
  decide +kernel

end MetaStore

end FastS3.Meta
