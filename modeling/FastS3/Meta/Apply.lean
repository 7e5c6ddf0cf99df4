import FastS3.Meta.Rows

namespace FastS3.Meta

open FastS3.Core Data

/-! `apply_ops`: the operations of one transaction, in order. -/

def liftExcept {α : Type} : Except Error α → MetaTx α
  | .ok value => pure value
  | .error e => throw e

def requireBucket (name : String) : MetaTx BucketMeta := do
  match ← tget (.bucket name) with
  | none => throw (.notFound s!"bucket {name}")
  | some found => return found

def modifyBucket (name : String) (change : BucketMeta → BucketMeta) : MetaTx Unit := do
  let found ← requireBucket name
  tinsert (.bucket name) (some (change found))

def modifyObject (bucket key : String) (vk : Option Vk) (change : ObjectMeta → ObjectMeta) :
    MetaTx Unit := do
  match ← tget (.object bucket key vk) with
  | none => throw (.notFound s!"object {bucket}/{key}")
  | some found => tinsert (.object bucket key vk) (some (change found))

def requireSession (uploadId : String) : MetaTx MultipartSession := do
  match ← tget (.session uploadId) with
  | none => throw (.notFound s!"upload {uploadId}")
  | some found => return found

/-- The closure of the compaction arm: each listed segment is replaced by the one at
the same position of the new list, and the replacements are counted. -/
def remap {S : Type} [DecidableEq S] (oldSegments newSegments list : List S) : List S × Nat :=
  (list.map fun s =>
    match oldSegments.idxOf? s with
    | some i => newSegments.getD i s
    | none => s,
   list.countP fun s => oldSegments.contains s)

def ObjectMeta.migrated (m : ObjectMeta) (oldSegments newSegments : List Segment) : ObjectMeta :=
  { m with
    extents := (remap oldSegments newSegments m.extents).1
    restoreState := m.restoreState.map fun st =>
      { st with restoredExtents := (remap oldSegments newSegments st.restoredExtents).1 } }

def ObjectMeta.replaced (m : ObjectMeta) (oldSegments newSegments : List Segment) : Nat :=
  (remap oldSegments newSegments m.extents).2 +
    match m.restoreState with
    | some st => (remap oldSegments newSegments st.restoredExtents).2
    | none => 0

/-- A replica may hold local coordinates already, so a mapping that does not match is
an error on the primary only. -/
def objectMigrate (replay : Bool) (bucket key : String) (vk : Option Vk)
    (oldSegments newSegments : List Segment) : MetaTx Unit := do
  match ← tget (.object bucket key vk) with
  | none => throw (.objectChanged s!"{bucket}/{key} deleted during compaction")
  | some found =>
    if oldSegments.length ≠ newSegments.length then
      throw (.objectChanged s!"{bucket}/{key} segment mapping mismatch")
    else if found.replaced oldSegments newSegments ≠ oldSegments.length ∧ replay = false then
      throw (.objectChanged s!"{bucket}/{key} segments changed during compaction")
    else tinsert (.object bucket key vk) (some (found.migrated oldSegments newSegments))

/-- The loop of the part arm: the old segments are met in order.  Returns the new
list and the part of the mapping that was not met. -/
def remapInOrder {S : Type} [DecidableEq S] : List S → List S → List S → List S × List S
  | _, old, [] => ([], old)
  | new :: news, old :: olds, s :: rest =>
    if s = old then
      let (out, left) := remapInOrder news olds rest
      (new :: out, left)
    else
      let (out, left) := remapInOrder (new :: news) (old :: olds) rest
      (s :: out, left)
  | news, olds, s :: rest =>
    let (out, left) := remapInOrder news olds rest
    (s :: out, left)

theorem remapInOrder_length {S : Type} [DecidableEq S] (news olds list : List S) :
    (remapInOrder news olds list).1.length = list.length := by
  fun_induction remapInOrder news olds list <;> simp_all

def partMigrate (replay : Bool) (uploadId : String) (partNo : Nat)
    (oldSegments newSegments : List Segment) : MetaTx Unit := do
  match ← tget (.part uploadId partNo) with
  | none => throw (.objectChanged s!"part {partNo} of upload {uploadId} deleted during compaction")
  | some found =>
    if oldSegments.length ≠ newSegments.length then
      throw (.objectChanged s!"part {partNo} of upload {uploadId} segment mapping mismatch")
    else
      let (out, left) := remapInOrder newSegments oldSegments found.extents
      if left ≠ [] ∧ replay = false then
        throw (.objectChanged
          s!"part {partNo} of upload {uploadId} segments changed during compaction")
      else tinsert (.part uploadId partNo) (some { found with extents := out })

def joinGroup (group : IamGroup) (member : String) : MetaTx Unit := do
  liftExcept (validateIamName member)
  let users ← tget (.iamUsers group.tenantId)
  match users.get? member with
  | none =>
    let tenant := group.tenantId
    let name := group.name
    throw (.invalidArgument
      s!"iam group {tenant}/{name} member {member} is not an existing user")
  | some user =>
    if user.groups.contains group.name then return ()
    else
      tinsert (.iamUsers group.tenantId)
        (users.insert member { user with groups := user.groups ++ [group.name] })

def leaveGroup (tenantId name member : String) : MetaTx Unit := do
  liftExcept (validateIamName member)
  let users ← tget (.iamUsers tenantId)
  match users.get? member with
  | none => return ()
  | some user =>
    tinsert (.iamUsers tenantId)
      (users.insert member { user with groups := user.groups.filter fun g => g ≠ name })

def formerMembers (old : Option IamGroup) (group : IamGroup) : List String :=
  match old with
  | none => []
  | some old => old.members.filter fun m => !group.members.contains m

def iamGroupPut (group : IamGroup) : MetaTx Unit := do
  liftExcept (validateIamName group.tenantId)
  liftExcept (validateIamName group.name)
  let groups ← tget (.iamGroups group.tenantId)
  group.members.forM (joinGroup group)
  (formerMembers (groups.get? group.name) group).forM (leaveGroup group.tenantId group.name)
  tinsert (.iamGroups group.tenantId) (groups.insert group.name group)

def iamGroupDelete (tenantId name : String) : MetaTx Unit := do
  liftExcept (validateIamName tenantId)
  liftExcept (validateIamName name)
  let groups ← tget (.iamGroups tenantId)
  match groups.get? name with
  | none => throw (.notFound s!"iam group {tenantId}/{name}")
  | some group =>
    group.members.forM (leaveGroup tenantId name)
    tinsert (.iamGroups tenantId) (groups.erase name)

def iamUserDelete (tenantId name : String) : MetaTx Unit := do
  liftExcept (validateIamName tenantId)
  liftExcept (validateIamName name)
  let users ← tget (.iamUsers tenantId)
  if (users.get? name).isNone then throw (.notFound s!"iam user {tenantId}/{name}")
  else if tenantId = Tenant.defaultTenant ∧ name = IamUser.bootstrapUser then
    throw (.invalidArgument "bootstrap user cannot be deleted (ADR-28 DI7.1)")
  else
    let keys ← tget .accessKeys
    if keys.values.any fun record => record.tenantId = tenantId ∧ record.ownerUser = name then
      throw (.invalidArgument s!"iam user {tenantId}/{name} still owns service accounts")
    else tinsert (.iamUsers tenantId) (users.erase name)

def iamPolicyDelete (tenantId name : String) : MetaTx Unit := do
  liftExcept (validateIamName tenantId)
  liftExcept (validateIamName name)
  let policies ← tget (.iamPolicies tenantId)
  if (policies.get? name).isNone then throw (.notFound s!"iam policy {tenantId}/{name}")
  else
    let users ← tget (.iamUsers tenantId)
    let groups ← tget (.iamGroups tenantId)
    if users.values.any (fun user => user.policies.contains name) ||
        groups.values.any (fun group => group.policies.contains name) then
      throw (.invalidArgument s!"iam policy {tenantId}/{name} still attached (detach first)")
    else tinsert (.iamPolicies tenantId) (policies.erase name)

def tenantDelete (tenantId : String) : MetaTx Unit := do
  liftExcept (validateIamName tenantId)
  match ← tget (.tenant tenantId) with
  | none => throw (.notFound s!"tenant {tenantId}")
  | some _ =>
    let users ← tget (.iamUsers tenantId)
    let groups ← tget (.iamGroups tenantId)
    let policies ← tget (.iamPolicies tenantId)
    let roles ← tget (.iamRoles tenantId)
    if users.values.isEmpty && groups.values.isEmpty && policies.values.isEmpty &&
        roles.values.isEmpty then
      let keys ← tget .accessKeys
      if keys.values.any fun record => record.tenantId = tenantId then
        throw (.invalidArgument s!"tenant {tenantId} not empty (keys exist)")
      else tremove (.tenant tenantId)
    else throw (.invalidArgument s!"tenant {tenantId} not empty (iam entities exist)")

/-- The arm of an operation.  `seq` is the sequence number that the rows of events,
restore jobs and allocations carry. -/
def applyOp (replay : Bool) (seq : Nat) : Op → MetaTx Unit
  | .bucketPut name value location => do
      tinsert (.bucket name) (some value)
      tinsert (.location name) location
  | .bucketDelete name => do
      let _ ← requireBucket name
      tremove (.bucket name)
      tremove (.location name)
      BucketConf.all.forM fun conf => tremove (.conf conf name)
      tremove (.lifecycleRules name)
      tremove (.notificationRules name)
      tremove (.inventoryRules name)
  | .bucketSetVersioning name state =>
    modifyBucket name fun b => { b with versioning := state }
  | .bucketSetEncryption name default =>
    modifyBucket name fun b => { b with defaultEncryption := default }
  | .bucketSetEncryptionKms name default kmsKey =>
    modifyBucket name fun b => { b with defaultEncryption := default, defaultKmsKey := kmsKey }
  | .bucketSetObjectLock name defaultRetention =>
    modifyBucket name fun b =>
      { b with objectLock := true, versioning := .enabled, defaultRetention := defaultRetention }
  | .bucketConfPut bucket conf value => do
      let _ ← requireBucket bucket
      tinsert (.conf conf bucket) (some value)
  | .bucketConfDelete bucket conf => do
      let _ ← requireBucket bucket
      tremove (.conf conf bucket)
  | .lifecycleRulesReplace bucket rules => do
      let _ ← requireBucket bucket
      tinsert (.lifecycleRules bucket)
        (rules.foldl (fun table rule => table.insert rule.id rule) BTreeMap.empty)
  | .lifecycleRulesDelete bucket => do
      let _ ← requireBucket bucket
      tremove (.lifecycleRules bucket)
  | .notificationRulesReplace bucket rules => do
      let _ ← requireBucket bucket
      tinsert (.notificationRules bucket)
        (rules.foldl (fun table rule => table.insert rule.id rule) BTreeMap.empty)
  | .notificationRulesDelete bucket => do
      let _ ← requireBucket bucket
      tremove (.notificationRules bucket)
  | .eventEnqueue record => do
      let events ← tget .events
      tinsert .events (events.insert seq { record with seq := seq })
  | .eventMarkDead target => do
      let events ← tget .events
      match events.get? target with
      | none => throw (.notFound s!"event {target}")
      | some record => tinsert .events (events.insert target { record with dead := true })
  | .eventDelete target => do
      let events ← tget .events
      tinsert .events (events.erase target)
  | .restoreJobPut job => tinsert (.restoreJob seq) (some job)
  | .restoreJobDelete target => tremove (.restoreJob target)
  | .sessionPut record => tinsert (.stsSession record.sessionId) (some record)
  | .sessionDelete sessionId => tremove (.stsSession sessionId)
  | .inventoryRulePut bucket rule => do
      let _ ← requireBucket bucket
      let rules ← tget (.inventoryRules bucket)
      tinsert (.inventoryRules bucket) (rules.insert rule.id rule)
  | .inventoryRuleDelete bucket id => do
      let _ ← requireBucket bucket
      let rules ← tget (.inventoryRules bucket)
      tinsert (.inventoryRules bucket) (rules.erase id)
  | .ingestJobPut job => do
      liftExcept (validateJobId "ingest" job.id)
      tinsert (.ingestJob job.id) (some job)
  | .ingestJobDelete id => do
      liftExcept (validateJobId "ingest" id)
      tremove (.ingestJob id)
  | .batchJobPut job => do
      liftExcept (validateJobId "batch" job.id)
      tinsert (.batchJob job.id) (some job)
  | .batchJobDelete id => do
      liftExcept (validateJobId "batch" id)
      tremove (.batchJob id)
  | .objectSetTags bucket key vk tags => modifyObject bucket key vk fun m => { m with tags := tags }
  | .objectSetRetention bucket key vk retention =>
    modifyObject bucket key vk fun m => { m with retention := retention }
  | .objectSetLegalHold bucket key vk legalHold =>
    modifyObject bucket key vk fun m => { m with legalHold := legalHold }
  | .objectPut bucket key value => do
      let _ ← requireBucket bucket
      tinsert (.object bucket key none) (some value)
  | .objectMigrate bucket key vk oldSegments newSegments =>
    objectMigrate replay bucket key vk oldSegments newSegments
  | .partMigrate uploadId partNo oldSegments newSegments =>
    partMigrate replay uploadId partNo oldSegments newSegments
  | .objectDelete bucket key => do
      match ← tget (.object bucket key none) with
      | none => throw (.notFound s!"object {bucket}/{key}")
      | some _ => tremove (.object bucket key none)
  | .objectDeleteCurrent bucket key vk marker => do
      let _ ← requireBucket bucket
      if marker.isDeleteMarker = false ∨ marker.size ≠ 0 ∨ marker.extents ≠ [] ∨
          marker.inline.isSome then
        throw (.invalidArgument s!"delete marker meta malformed for {bucket}/{key}")
      else tinsert (.object bucket key vk) (some marker)
  | .objectDeleteVersion bucket key vk => do
      match ← tget (.object bucket key (some vk)) with
      | none => throw (.notFound s!"object version {bucket}/{key}")
      | some _ => tremove (.object bucket key (some vk))
  | .objectPutVersion bucket key vk value => do
      let _ ← requireBucket bucket
      if value.isDeleteMarker then
        throw (.invalidArgument s!"delete marker must use ObjectDeleteCurrent for {bucket}/{key}")
      else tinsert (.object bucket key (some vk)) (some value)
  | .objectMetaRewrite bucket key vk value => do
      match ← tget (.object bucket key vk) with
      | none =>
        let length := (objectRawKey bucket key vk).length
        throw (.notFound s!"object raw key {length} bytes")
      | some _ => tinsert (.object bucket key vk) (some value)
  | .alloc draft => do
      -- a replica allocates on its own
      if replay ∨ (draft.alloc = [] ∧ draft.refInc = [] ∧ draft.refDec = []) then return ()
      else
        tinsert (.alloc seq) (some ⟨seq, seq, draft.alloc, draft.refInc, draft.refDec⟩)
        tinsert (.txn seq) (some seq)
  | .stats bucket delta => modifyBucket bucket fun b => b.applyStats delta
  | .multipartCreate uploadId session => do
      let _ ← requireBucket session.bucket
      tinsert (.session uploadId) (some session)
      tinsert (.sessionIndex session.bucket uploadId) (some ())
  | .multipartUpdate uploadId completed finalEtag finalSize finalMtime => do
      let session ← requireSession uploadId
      tinsert (.session uploadId)
        (some { session with completed, finalEtag, finalSize, finalMtime })
  | .multipartDelete uploadId => do
      let session ← requireSession uploadId
      tremove (.session uploadId)
      tremove (.sessionIndex session.bucket uploadId)
  | .partPut uploadId partNo value => do
      let _ ← requireSession uploadId
      tinsert (.part uploadId partNo) (some value)
  | .partDelete uploadId partNo => tremove (.part uploadId partNo)
  | .keyPut accessKey record => do
      let keys ← tget .accessKeys
      tinsert .accessKeys (keys.insert accessKey record)
  | .keyDelete accessKey => do
      let keys ← tget .accessKeys
      if (keys.get? accessKey).isNone then throw (.notFound s!"key {accessKey}")
      else tinsert .accessKeys (keys.erase accessKey)
  | .tenantPut tenant => do
      liftExcept (validateIamName tenant.tenantId)
      tinsert (.tenant tenant.tenantId) (some tenant)
  | .tenantDelete tenantId => tenantDelete tenantId
  | .iamUserPut user => do
      liftExcept (validateIamName user.tenantId)
      liftExcept (validateIamName user.name)
      let users ← tget (.iamUsers user.tenantId)
      tinsert (.iamUsers user.tenantId) (users.insert user.name user)
  | .iamUserDelete tenantId name => iamUserDelete tenantId name
  | .iamGroupPut group => iamGroupPut group
  | .iamGroupDelete tenantId name => iamGroupDelete tenantId name
  | .iamPolicyPut policy => do
      match policy.tenantId with
      | none => throw (.invalidArgument
          "canned policy is a code constant; custom policy requires tenant_id")
      | some tenant =>
        liftExcept (validateIamName tenant)
        liftExcept (validateIamName policy.name)
        let policies ← tget (.iamPolicies tenant)
        tinsert (.iamPolicies tenant) (policies.insert policy.name policy)
  | .iamPolicyDelete tenantId name => iamPolicyDelete tenantId name
  | .iamRolePut role => do
      liftExcept (validateIamName role.tenantId)
      liftExcept (validateIamName role.name)
      let roles ← tget (.iamRoles role.tenantId)
      tinsert (.iamRoles role.tenantId) (roles.insert role.name role)
  | .iamRoleDelete tenantId name => do
      liftExcept (validateIamName tenantId)
      liftExcept (validateIamName name)
      let roles ← tget (.iamRoles tenantId)
      if (roles.get? name).isNone then throw (.notFound s!"iam role {tenantId}/{name}")
      else tinsert (.iamRoles tenantId) (roles.erase name)
  | .sseKekSeedPut seed => do
      let length := seed.length
      if length ≠ 64 then
        throw (.corrupt s!"sse kek seed op must be 64 bytes, got {length}")
      else tinsert .sseKekSeed (some seed)
  | .sseKekGenPut state => tinsert .sseKekGen (some state)

inductive ApplyMode where
  | commit (replBinlog : Bool) (now : Int)
  | replay (gtid : Gtid) (record : ReplRecord)

def ApplyMode.isReplay : ApplyMode → Bool
  | .commit _ _ => false
  | .replay _ _ => true

def replInitialEpoch : Nat := 1

/-- The number in the keys of this transaction and the new value of `s:seq`. -/
def ApplyMode.numbers (mode : ApplyMode) (cur : Nat) : Nat × Nat :=
  match mode with
  | .commit _ _ => (cur + 1, cur + 1)
  | .replay gtid record =>
    let raw := record.rawSeq.getD gtid.seq
    (raw, max cur raw)

def writeBinlog (mode : ApplyMode) (seq : Nat) (ops : List Op) : MetaTx Unit := do
  match mode with
  | .commit false _ => return ()
  | .commit true now =>
    let epoch := (← tget .replEpoch).getD replInitialEpoch
    let ebase := (← tget .replEbase).getD 0
    if seq < ebase then throw (.corrupt s!"s:repl_ebase {ebase} > commit seq {seq}")
    else
      tinsert (.binlog ⟨epoch, seq - ebase⟩)
        (some { ReplRecord.new epoch ops with ts := some now, rawSeq := some seq })
  | .replay gtid record => tinsert (.binlog gtid) (some record)

def applyOps (mode : ApplyMode) (ops : List Op) : MetaTx Nat := do
  let cur := (← tget .seq).getD 0
  let (seq, newSeq) := mode.numbers cur
  ops.forM (applyOp mode.isReplay seq)
  writeBinlog mode seq ops
  tinsert .seq (some newSeq)
  return newSeq

end FastS3.Meta
