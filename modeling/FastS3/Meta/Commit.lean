import FastS3.Meta.Touches

namespace FastS3.Meta

open FastS3.Core Data

/-! The calls that change the metadata store: local commits, replication applies,
snapshot imports and the clearing before a rebuild. -/

structure MetaConfig where
  replBinlog : Bool
  eventQueueMax : Nat
deriving Repr, DecidableEq

structure MetaStore where
  rows : Store
  lifecycleCache : String → Option (List LifecycleRule)
  notificationCache : String → Option (List NotificationRule)

/-- `open`: the caches start empty. -/
def MetaStore.opened (rows : Store) : MetaStore :=
  ⟨rows, fun _ => none, fun _ => none⟩

/-- What the database does with a finished transaction: it refuses it, it keeps it but
the flush of the log fails, or it keeps it.  `trimmed` says whether the trimming of
the event queue behind it, whose failure is ignored, went through. -/
inductive Fate where
  | refused (message : String)
  | unflushed (message : String)
  | kept (trimmed : Bool)
deriving Repr, DecidableEq

namespace MetaStore

/-- A round of `invalidate_conf_caches`. -/
def invalidate (store : MetaStore) (op : Op) : MetaStore :=
  match op with
  | .lifecycleRulesReplace bucket _ | .lifecycleRulesDelete bucket =>
    { store with lifecycleCache := Function.update store.lifecycleCache bucket none }
  | .notificationRulesReplace bucket _ | .notificationRulesDelete bucket =>
    { store with notificationCache := Function.update store.notificationCache bucket none }
  | _ => store

def invalidateConfCaches (store : MetaStore) (ops : List Op) : MetaStore :=
  ops.foldl invalidate store

def getLifecycleRules (store : MetaStore) (bucket : String) : List LifecycleRule × MetaStore :=
  match store.lifecycleCache bucket with
  | some hit => (hit, store)
  | none =>
    let rules := (store.rows (.lifecycleRules bucket)).values
    (rules, { store with
      lifecycleCache := Function.update store.lifecycleCache bucket (some rules) })

def getNotificationRules (store : MetaStore) (bucket : String) :
    List NotificationRule × MetaStore :=
  match store.notificationCache bucket with
  | some hit => (hit, store)
  | none =>
    let rules := (store.rows (.notificationRules bucket)).values
    (rules, { store with
      notificationCache := Function.update store.notificationCache bucket (some rules) })

/-- `truncate_events`: a queue that is over its bound by more than the slack loses its
oldest entries. -/
def truncateEvents (queueMax : Nat) (events : BTreeMap Nat EventRecord) :
    BTreeMap Nat EventRecord :=
  let queueMax := max queueMax 1
  let slack := min (max (queueMax / 10) 1) 4096
  let count := events.entries.length
  if count ≤ queueMax + slack then events else events.dropFirst (count - queueMax)

def enqueues (ops : List Op) : Bool :=
  ops.any fun op =>
    match op with
    | .eventEnqueue _ => true
    | _ => false

def settle (config : MetaConfig) (store : MetaStore) (ops : List Op) (trimmed : Bool) : MetaStore :=
  let store := store.invalidateConfCaches ops
  if enqueues ops ∧ trimmed then
    let events := truncateEvents config.eventQueueMax (store.rows .events)
    { store with rows := Function.update store.rows Key.events events }
  else store

/-- `commit`: the new sequence number. -/
def commit (config : MetaConfig) (store : MetaStore) (fate : Fate) (now : Int) (ops : List Op) :
    Except Error Nat × MetaStore :=
  match applyOps (.commit config.replBinlog now) ops store.rows with
  | .error e => (.error e, store)
  | .ok (seq, rows) =>
    match fate with
    | .refused message => (.error (.metaError message), store)
    | .unflushed message => (.error (.metaError message), { store with rows := rows })
    | .kept trimmed => (.ok seq, settle config { store with rows := rows } ops trimmed)

end MetaStore

inductive ReplApplyOutcome where
  | applied
  | skippedDuplicate
deriving Repr, DecidableEq

def advanceEpoch (epoch : Nat) : MetaTx Unit := do
  let localEpoch := (← tget .replEpoch).getD replInitialEpoch
  if epoch > localEpoch then tinsert .replEpoch (some epoch) else return ()

/-- The failed assertion of `insert` ends the call without a trace in the database. -/
def insertExecuted (gtid : Gtid) : MetaTx Unit := do
  let executed := (← tget .replExecuted).getD GtidSet.new
  match executed.insert gtid with
  | none => throw (.corrupt "gtid seq starts at 1")
  | some executed => tinsert .replExecuted (some executed)

def pendingTarget : Op → Option (String × String)
  | .objectPut bucket key _ | .objectPutVersion bucket key _ _ | .objectMigrate bucket key _ _ _ =>
    some (bucket, key)
  | _ => none

def markPending (op : Op) : MetaTx Unit :=
  match pendingTarget op with
  | some (bucket, key) => tinsert (.replPendingObj bucket key) (some ())
  | none => pure ()

def enqueuePending (gtid : Gtid) (record : ReplRecord) : MetaTx Unit := do
  if record.dataRefs = [] then return ()
  else
    tinsert (.replPending gtid) (some record.dataRefs)
    record.ops.forM markPending

/-- The transaction of `apply_repl_record`. -/
def replApplyTx (gtid : Gtid) (record : ReplRecord) : MetaTx ReplApplyOutcome := do
  let cursor := (← tget .replCursor).getD ⟨0, 0⟩
  if gtid.le cursor then return .skippedDuplicate
  else
    let floor := max cursor.epoch replInitialEpoch
    let epoch := record.epoch
    if epoch < floor then
      let cursorEpoch := cursor.epoch
      let cursorSeq := cursor.seq
      throw (.invalidArgument
        s!"repl record epoch {epoch} fenced (cursor Gtid \x7b epoch: {cursorEpoch}, seq: {cursorSeq} \x7d, floor {floor}; replication-design §2.3)")
    else
      advanceEpoch epoch
      let _ ← applyOps (.replay gtid record) record.ops
      insertExecuted gtid
      tinsert .replCursor (some gtid)
      enqueuePending gtid record
      return .applied

namespace MetaStore

def applyReplRecord (config : MetaConfig) (store : MetaStore) (fate : Fate) (gtid : Gtid)
    (record : ReplRecord) : Except Error ReplApplyOutcome × MetaStore :=
  let epoch := record.epoch
  let gtidEpoch := gtid.epoch
  if gtidEpoch ≠ epoch then
    (.error (.invalidArgument
      s!"repl record epoch {epoch} != gtid epoch {gtidEpoch} (corrupt stream)"), store)
  else
    match replApplyTx gtid record store.rows with
    | .error e => (.error e, store)
    | .ok (.skippedDuplicate, _) => (.ok .skippedDuplicate, store)
    | .ok (.applied, rows) =>
      match fate with
      | .refused message => (.error (.metaError message), store)
      | .unflushed message => (.error (.metaError message), { store with rows := rows })
      | .kept trimmed =>
        (.ok .applied, settle config { store with rows := rows } record.ops trimmed)

end MetaStore

inductive ImportEntry where
  | bucket (name : String) (value : BucketMeta)
  | location (name value : String)
  | conf (conf : BucketConf) (bucket : String) (value : Bytes)
  | lifecycleRule (bucket id : String) (rule : LifecycleRule)
  | notificationRule (bucket id : String) (rule : NotificationRule)
  | inventoryRule (bucket id : String) (rule : InventoryRule)
  | object (bucket key : String) (vk : Option Vk) (value : ObjectMeta)
  | session (uploadId : String) (session : MultipartSession)
  | sessionIndex (bucket uploadId : String)
  | part (uploadId : String) (partNo : Nat) (value : PartMeta)
  | accessKey (accessKey : String) (record : KeyRecord)
  | tenant (tenantId : String) (tenant : Tenant)
  | iamUser (tenantId name : String) (user : IamUser)
  | iamGroup (tenantId name : String) (group : IamGroup)
  | iamPolicy (tenantId name : String) (policy : IamPolicy)
  | iamRole (tenantId name : String) (role : IamRole)
  | sseKekSeed (seed : Bytes)
  | sseKekGen (state : SseKekGenState)

def importEntry : ImportEntry → MetaTx Unit
  | .bucket name value => tinsert (.bucket name) (some value)
  | .location name value => tinsert (.location name) (some value)
  | .conf conf bucket value => tinsert (.conf conf bucket) (some value)
  | .lifecycleRule bucket id rule => do
      let rules ← tget (.lifecycleRules bucket)
      tinsert (.lifecycleRules bucket) (rules.insert id rule)
  | .notificationRule bucket id rule => do
      let rules ← tget (.notificationRules bucket)
      tinsert (.notificationRules bucket) (rules.insert id rule)
  | .inventoryRule bucket id rule => do
      let rules ← tget (.inventoryRules bucket)
      tinsert (.inventoryRules bucket) (rules.insert id rule)
  | .object bucket key vk value => tinsert (.object bucket key vk) (some value)
  | .session uploadId session => tinsert (.session uploadId) (some session)
  | .sessionIndex bucket uploadId => tinsert (.sessionIndex bucket uploadId) (some ())
  | .part uploadId partNo value => tinsert (.part uploadId partNo) (some value)
  | .accessKey accessKey record => do
      let keys ← tget .accessKeys
      tinsert .accessKeys (keys.insert accessKey record)
  | .tenant tenantId tenant => tinsert (.tenant tenantId) (some tenant)
  | .iamUser tenantId name user => do
      let users ← tget (.iamUsers tenantId)
      tinsert (.iamUsers tenantId) (users.insert name user)
  | .iamGroup tenantId name group => do
      let groups ← tget (.iamGroups tenantId)
      tinsert (.iamGroups tenantId) (groups.insert name group)
  | .iamPolicy tenantId name policy => do
      let policies ← tget (.iamPolicies tenantId)
      tinsert (.iamPolicies tenantId) (policies.insert name policy)
  | .iamRole tenantId name role => do
      let roles ← tget (.iamRoles tenantId)
      tinsert (.iamRoles tenantId) (roles.insert name role)
  | .sseKekSeed seed => tinsert .sseKekSeed (some seed)
  | .sseKekGen state => tinsert .sseKekGen (some state)

def importKey : ImportEntry → Key
  | .bucket name _ => .bucket name
  | .location name _ => .location name
  | .conf conf bucket _ => .conf conf bucket
  | .lifecycleRule bucket _ _ => .lifecycleRules bucket
  | .notificationRule bucket _ _ => .notificationRules bucket
  | .inventoryRule bucket _ _ => .inventoryRules bucket
  | .object bucket key vk _ => .object bucket key vk
  | .session uploadId _ => .session uploadId
  | .sessionIndex bucket uploadId => .sessionIndex bucket uploadId
  | .part uploadId partNo _ => .part uploadId partNo
  | .accessKey _ _ => .accessKeys
  | .tenant tenantId _ => .tenant tenantId
  | .iamUser tenantId _ _ => .iamUsers tenantId
  | .iamGroup tenantId _ _ => .iamGroups tenantId
  | .iamPolicy tenantId _ _ => .iamPolicies tenantId
  | .iamRole tenantId _ _ => .iamRoles tenantId
  | .sseKekSeed _ => .sseKekSeed
  | .sseKekGen _ => .sseKekGen

def mergeAlloc (alloc : Option AllocDraft) (seq : Nat) : MetaTx Unit := do
  match alloc with
  | none => return ()
  | some draft =>
    if draft.alloc = [] ∧ draft.refInc = [] ∧ draft.refDec = [] then return ()
    else
      let record := (← tget (.alloc seq)).getD ⟨seq, seq, [], [], []⟩
      tinsert (.alloc seq) (some { record with
        alloc := record.alloc ++ draft.alloc
        refInc := record.refInc ++ draft.refInc
        refDec := record.refDec ++ draft.refDec })
      tinsert (.txn seq) (some seq)

def importTx (entries : List ImportEntry) (alloc : Option AllocDraft) (importSeq : Nat) :
    MetaTx Unit := do
  entries.forM importEntry
  mergeAlloc alloc importSeq

def wipe (family : Key → Bool) (rows : Store) : Store :=
  fun key => if family key then Value.absent key else rows key

def wipeOrder : List (Key → Bool) :=
  [fun key => key = .replCursor ∨ key = .replExecuted ∨ key = .replEpoch ∨ key = .replEbase,
   fun | .binlog _ => true | _ => false,
   fun | .replPending _ => true | _ => false,
   fun | .replPendingObj _ _ => true | _ => false,
   fun | .replRmap _ _ _ _ => true | _ => false,
   fun | .bucket _ => true | _ => false,
   fun | .location _ => true | _ => false,
   fun | .conf _ _ => true | _ => false,
   fun | .object _ _ _ => true | _ => false,
   fun | .session _ => true | _ => false,
   fun | .sessionIndex _ _ => true | _ => false,
   fun | .part _ _ => true | _ => false,
   fun | .accessKeys => true | _ => false,
   fun | .lifecycleRules _ => true | _ => false,
   fun | .notificationRules _ => true | _ => false,
   fun | .inventoryRules _ => true | _ => false,
   fun | .tenant _ => true | _ => false,
   fun | .iamUsers _ => true | _ => false,
   fun | .iamGroups _ => true | _ => false,
   fun | .iamPolicies _ => true | _ => false,
   fun | .iamRoles _ => true | _ => false]

namespace MetaStore

def importReplBatch (store : MetaStore) (fate : Fate) (entries : List ImportEntry)
    (alloc : Option AllocDraft) (importSeq : Nat) : Except Error Unit × MetaStore :=
  match importTx entries alloc importSeq store.rows with
  | .error e => (.error e, store)
  | .ok (_, rows) =>
    match fate with
    | .refused message => (.error (.metaError message), store)
    | .unflushed message => (.error (.metaError message), { store with rows := rows })
    | .kept _ => (.ok (), { store with rows := rows })

/-- `clear_for_rebuild`, which ends early when a write fails: `reached` families were
cleared. -/
def clearForRebuild (store : MetaStore) (reached : Nat) : MetaStore :=
  { store with rows := (wipeOrder.take reached).foldl (fun rows family => wipe family rows) store.rows }

end MetaStore

end FastS3.Meta
