import FastS3.Meta.Values
import Mathlib.Data.List.Dedup

namespace FastS3.Meta

open FastS3.Core

/-! The operations of a metadata transaction and the record that replicates them. -/

/-- `fs3_meta::Op`.  The raw keys of `objectMetaRewrite` and `partDelete` come from
scans of the object and part rows, so they are kept parsed. -/
inductive Op where
  | bucketPut (name : String) (value : BucketMeta) (location : Option String)
  | bucketDelete (name : String)
  | objectPut (bucket key : String) (value : ObjectMeta)
  | objectMigrate (bucket key : String) (vk : Option Vk) (oldSegments newSegments : List Segment)
  | partMigrate (uploadId : String) (partNo : Nat) (oldSegments newSegments : List Segment)
  | bucketSetVersioning (name : String) (state : VersioningState)
  | bucketSetEncryption (name : String) (default : Option SseAlgorithm)
  | bucketSetEncryptionKms (name : String) (default : Option SseAlgorithm) (kmsKey : Option String)
  | bucketSetObjectLock (name : String) (defaultRetention : Option ObjectLockDefaultRetention)
  | bucketConfPut (bucket : String) (conf : BucketConf) (value : Bytes)
  | bucketConfDelete (bucket : String) (conf : BucketConf)
  | lifecycleRulesReplace (bucket : String) (rules : List LifecycleRule)
  | lifecycleRulesDelete (bucket : String)
  | notificationRulesReplace (bucket : String) (rules : List NotificationRule)
  | notificationRulesDelete (bucket : String)
  | eventEnqueue (record : EventRecord)
  | eventMarkDead (seq : Nat)
  | eventDelete (seq : Nat)
  | restoreJobPut (job : RestoreJob)
  | restoreJobDelete (seq : Nat)
  | sessionPut (record : SessionRecord)
  | sessionDelete (sessionId : String)
  | inventoryRulePut (bucket : String) (rule : InventoryRule)
  | inventoryRuleDelete (bucket id : String)
  | ingestJobPut (job : IngestJob)
  | ingestJobDelete (id : String)
  | batchJobPut (job : BatchJob)
  | batchJobDelete (id : String)
  | objectSetTags (bucket key : String) (vk : Option Vk) (tags : List (String × String))
  | objectSetRetention (bucket key : String) (vk : Option Vk) (retention : Option Retention)
  | objectSetLegalHold (bucket key : String) (vk : Option Vk) (legalHold : Bool)
  | objectDelete (bucket key : String)
  | objectDeleteCurrent (bucket key : String) (vk : Option Vk) (marker : ObjectMeta)
  | objectDeleteVersion (bucket key : String) (vk : Vk)
  | objectPutVersion (bucket key : String) (vk : Vk) (value : ObjectMeta)
  | objectMetaRewrite (bucket key : String) (vk : Option Vk) (value : ObjectMeta)
  | alloc (draft : AllocDraft)
  | stats (bucket : String) (delta : StatsDelta)
  | multipartCreate (uploadId : String) (session : MultipartSession)
  | multipartUpdate (uploadId : String) (completed : Bool) (finalEtag : Bytes) (finalSize : Nat)
      (finalMtime : Int)
  | multipartDelete (uploadId : String)
  | partPut (uploadId : String) (partNo : Nat) (value : PartMeta)
  | partDelete (uploadId : String) (partNo : Nat)
  | keyPut (accessKey : String) (record : KeyRecord)
  | keyDelete (accessKey : String)
  | tenantPut (tenant : Tenant)
  | iamUserPut (user : IamUser)
  | iamUserDelete (tenantId name : String)
  | iamGroupPut (group : IamGroup)
  | iamGroupDelete (tenantId name : String)
  | iamPolicyPut (policy : IamPolicy)
  | iamPolicyDelete (tenantId name : String)
  | iamRolePut (role : IamRole)
  | iamRoleDelete (tenantId name : String)
  | tenantDelete (tenantId : String)
  | sseKekSeedPut (seed : Bytes)
  | sseKekGenPut (state : SseKekGenState)

/-- `DataRef`: the place of a segment on the upstream.  Its checksum is a reserved
field that is never set. -/
abbrev DataRef := SegKey

structure BucketScope where
  buckets : List String
  hasUnscoped : Bool
deriving Repr, DecidableEq

/-- `ReplRecord`: a committed transaction as it is sent downstream. -/
structure ReplRecord where
  epoch : Nat
  ops : List Op
  dataRefs : List DataRef
  bucketScope : BucketScope
  ts : Option Int
  epochBarrier : Option Nat
  rawSeq : Option Nat

/-- The bucket an operation names; `none` for the operations that are always sent. -/
def opBucket : Op → Option String
  | .bucketPut name _ _ | .bucketDelete name | .bucketSetVersioning name _
  | .bucketSetEncryption name _ | .bucketSetEncryptionKms name _ _
  | .bucketSetObjectLock name _ => some name
  | .bucketConfPut bucket _ _ | .bucketConfDelete bucket _ | .lifecycleRulesReplace bucket _
  | .lifecycleRulesDelete bucket | .notificationRulesReplace bucket _
  | .notificationRulesDelete bucket | .inventoryRulePut bucket _ | .inventoryRuleDelete bucket _
  | .objectPut bucket _ _ | .objectMigrate bucket _ _ _ _ | .objectSetTags bucket _ _ _
  | .objectSetRetention bucket _ _ _ | .objectSetLegalHold bucket _ _ _ | .objectDelete bucket _
  | .objectDeleteCurrent bucket _ _ _ | .objectDeleteVersion bucket _ _
  | .objectPutVersion bucket _ _ _ | .stats bucket _ => some bucket
  | .eventEnqueue record => some record.bucket
  | .restoreJobPut job => some job.bucket
  | .ingestJobPut job => some job.destBucket
  | .multipartCreate _ session => some session.bucket
  | .partMigrate _ _ _ _ | .partPut _ _ _ | .partDelete _ _ | .multipartUpdate _ _ _ _ _
  | .multipartDelete _ | .objectMetaRewrite _ _ _ _ | .eventMarkDead _ | .eventDelete _
  | .restoreJobDelete _ | .ingestJobDelete _ | .batchJobPut _ | .batchJobDelete _ | .alloc _
  | .keyPut _ _ | .keyDelete _ | .sessionPut _ | .sessionDelete _ | .tenantPut _ | .tenantDelete _
  | .iamUserPut _ | .iamUserDelete _ _ | .iamGroupPut _ | .iamGroupDelete _ _ | .iamPolicyPut _
  | .iamPolicyDelete _ _ | .iamRolePut _ | .iamRoleDelete _ _ | .sseKekSeedPut _
  | .sseKekGenPut _ => none

def bucketScopeOf (ops : List Op) : BucketScope where
  buckets := ((ops.filterMap opBucket).mergeSort fun left right => left ≤ right).dedup
  hasUnscoped := ops.any fun op => (opBucket op).isNone

def opRefs : Op → List DataRef
  | .objectPut _ _ value | .objectPutVersion _ _ _ value => value.segments.map Segment.key
  | .objectMigrate _ _ _ _ newSegments | .partMigrate _ _ _ newSegments =>
    newSegments.map Segment.key
  | .partPut _ _ value => value.extents.map Segment.key
  | _ => []

/-- The order of the derived `Ord`. -/
def refLe (left right : DataRef) : Bool :=
  left.extent < right.extent ||
    (left.extent == right.extent && (left.offset < right.offset ||
      (left.offset == right.offset && left.len ≤ right.len)))

/-- `data_refs_of`: sorted, each place once. -/
def dataRefsOf (ops : List Op) : List DataRef :=
  ((ops.flatMap opRefs).mergeSort refLe).dedup

theorem mem_dataRefsOf {ops : List Op} {place : DataRef} :
    place ∈ dataRefsOf ops ↔ ∃ op ∈ ops, place ∈ opRefs op := by
  rw [dataRefsOf, List.mem_dedup, List.mem_mergeSort, List.mem_flatMap]

def ReplRecord.new (epoch : Nat) (ops : List Op) : ReplRecord where
  epoch := epoch
  ops := ops
  dataRefs := dataRefsOf ops
  bucketScope := bucketScopeOf ops
  ts := none
  epochBarrier := none
  rawSeq := none

inductive BucketFilter where
  | all
  | include (buckets : List String)
  | exclude (buckets : List String)
deriving Repr, DecidableEq

def BucketFilter.allowsBucket (filters : BucketFilter) (bucket : String) : Bool :=
  match filters with
  | .all => true
  | .include list => list.contains bucket
  | .exclude list => !list.contains bucket

def BucketFilter.keeps (filters : BucketFilter) (op : Op) : Bool :=
  match opBucket op with
  | none => true
  | some bucket => filters.allowsBucket bucket

/-- `scoped_for`: the record as a slot with this filter receives it. -/
def ReplRecord.scopedFor (record : ReplRecord) (filters : BucketFilter) : ReplRecord :=
  if filters = .all then record
  else
    let ops := record.ops.filter filters.keeps
    if ops.length = record.ops.length then record
    else
      { record with
        dataRefs := dataRefsOf ops
        bucketScope := bucketScopeOf ops
        ops := ops }

theorem ReplRecord.scopedFor_ops (record : ReplRecord) (filters : BucketFilter) :
    (record.scopedFor filters).ops = record.ops.filter filters.keeps := by
  unfold scopedFor
  split
  · next none =>
      symm
      rw [List.filter_eq_self]
      intro op _
      unfold BucketFilter.keeps
      rw [none]
      split
      · rfl
      · rfl
  · dsimp only
    split
    · next same => exact (List.filter_sublist.eq_of_length same).symm
    · rfl

end FastS3.Meta
