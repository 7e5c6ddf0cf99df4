import FastS3.Core.Gtid
import FastS3.Core.Object

namespace FastS3.Meta

open FastS3.Core

/-! The values of the metadata store.

Fields that no transaction reads are left out; a record whose rules are returned
to a caller is kept whole.  Every value was written by the current encoder, so a
row is kept decoded.
-/

inductive SseAlgorithm where
  | aes256
  | kms
deriving Repr, DecidableEq

inductive RetentionMode where
  | governance
  | compliance
deriving Repr, DecidableEq

structure Retention where
  mode : RetentionMode
  retainUntil : Int
deriving Repr, DecidableEq

inductive RetentionPeriodUnit where
  | days
  | years
deriving Repr, DecidableEq

structure ObjectLockDefaultRetention where
  mode : RetentionMode
  unit : RetentionPeriodUnit
  n : Int
deriving Repr, DecidableEq

structure BucketClassTally where
  objects : Nat := 0
  bytes : Nat := 0
deriving Repr, DecidableEq

/-- The statistics of the engine's view with the tally of each storage class. -/
structure BucketMeta extends Core.BucketMeta where
  byClass : List (String × BucketClassTally)
  defaultEncryption : Option SseAlgorithm
  defaultKmsKey : Option String
  objectLock : Bool
  defaultRetention : Option ObjectLockDefaultRetention
deriving Repr, DecidableEq

def BucketMeta.created : BucketMeta where
  versioning := .off
  quota := none
  objects := 0
  bytes := 0
  byClass := []
  defaultEncryption := none
  defaultKmsKey := none
  objectLock := false
  defaultRetention := none

structure StatsDelta extends Core.StatsDelta where
  byClass : List (String × Int × Int)
deriving Repr, DecidableEq

/-- The tally of one class moves and never falls below zero; an empty tally is dropped. -/
def applyClassDelta (tallies : List (String × BucketClassTally)) (name : String)
    (objects bytes : Int) : List (String × BucketClassTally) :=
  if objects = 0 ∧ bytes = 0 then tallies
  else
    let moved :=
      if tallies.any fun entry => entry.1 == name then
        match tallies.span fun entry => !(entry.1 == name) with
        | (before, entry :: after) =>
          before ++ (entry.1, { objects := ((entry.2.objects : Int) + objects).toNat,
                                bytes := ((entry.2.bytes : Int) + bytes).toNat }) :: after
        | (before, []) => before
      else tallies ++ [(name, { objects := objects.toNat, bytes := bytes.toNat })]
    moved.filter fun entry => entry.2.objects ≠ 0 ∨ entry.2.bytes ≠ 0

def BucketMeta.applyStats (bucket : BucketMeta) (delta : StatsDelta) : BucketMeta :=
  { bucket with
    toBucketMeta := bucket.toBucketMeta.applyStats delta.toStatsDelta
    byClass := delta.byClass.foldl (fun tallies step => applyClassDelta tallies step.1 step.2.1 step.2.2)
      bucket.byClass }

/-- The record of the engine's view with the fields that are set on their own. -/
structure ObjectMeta extends Core.ObjectMeta where
  tags : List (String × String)
  retention : Option Retention
  legalHold : Bool
deriving Repr, DecidableEq

def ObjectMeta.segments (m : ObjectMeta) : List Segment :=
  m.extents ++ m.restoredExtents

/-- `BucketConf`: one document each. -/
inductive BucketConf where
  | cors
  | tagging
  | ownership
  | publicAccessBlock
  | policy
deriving Repr, DecidableEq

def BucketConf.all : List BucketConf :=
  [.cors, .tagging, .ownership, .publicAccessBlock, .policy]

inductive LifecycleStatus where
  | enabled
  | disabled
deriving Repr, DecidableEq

structure LifecycleFilter where
  namePrefix : String := ""
  tags : List (String × String) := []
deriving Repr, DecidableEq

structure LifecycleExpiration where
  days : Option Nat := none
  date : Option Int := none
  expiredObjectDeleteMarker : Bool := false
deriving Repr, DecidableEq

structure NoncurrentVersionExpiration where
  noncurrentDays : Option Nat := none
  newerNoncurrentVersions : Option Nat := none
deriving Repr, DecidableEq

structure LifecycleTransition where
  days : Option Nat := none
  date : Option Int := none
  storageClass : String
deriving Repr, DecidableEq

structure AbortIncompleteMultipartUpload where
  daysAfterInitiation : Nat
deriving Repr, DecidableEq

structure LifecycleRule where
  id : String
  status : LifecycleStatus
  filter : LifecycleFilter := {}
  expiration : Option LifecycleExpiration := none
  noncurrentExpiration : Option NoncurrentVersionExpiration := none
  transition : Option LifecycleTransition := none
  abortIncompleteMultipart : Option AbortIncompleteMultipartUpload := none
  legacyPrefix : Bool := false
deriving Repr, DecidableEq

inductive NotificationTargetKind where
  | topic
  | queue
  | cloudFunction
deriving Repr, DecidableEq

structure NotificationKeyFilter where
  namePrefix : Option String := none
  nameSuffix : Option String := none
deriving Repr, DecidableEq

structure NotificationRule where
  id : String
  events : List String
  kind : NotificationTargetKind
  url : String
  hmacKey : Option String := none
  enabled : Bool := true
  filter : NotificationKeyFilter := {}
deriving Repr, DecidableEq

structure InventoryRule where
  id : String
deriving Repr, DecidableEq

structure MultipartSession where
  bucket : String
  key : String
  completed : Bool
  finalEtag : Bytes
  finalSize : Nat
  finalMtime : Int
deriving Repr, DecidableEq

structure EventRecord where
  seq : Nat
  bucket : String
  key : String
  event : String
  dead : Bool
deriving Repr, DecidableEq

structure RestoreJob where
  bucket : String
  key : String
  vk : Option Vk
  enqueuedAt : Int
  days : Nat
  tier : String
deriving Repr, DecidableEq

structure IngestJob where
  id : String
  destBucket : String
deriving Repr, DecidableEq

structure BatchJob where
  id : String
deriving Repr, DecidableEq

/-- A session of the security token service.  Of its secret only the hash is kept. -/
structure SessionRecord where
  sessionId : String
  temporaryAccessKey : String
  baseAccessKey : String
  sessionPolicy : Option String
  expiresAt : Int
  secretHash : String
  inlinePolicy : Option String
deriving Repr, DecidableEq

/-- The secret is kept encrypted; both policies are kept as texts. -/
structure KeyRecord where
  accessKey : String
  secretCipher : String
  enabled : Bool
  policy : Option String
  tenantId : String
  ownerUser : String
  embeddedPolicy : Option String
deriving Repr, DecidableEq

structure Tenant where
  tenantId : String
  displayName : String
  canonicalId : String
deriving Repr, DecidableEq

def Tenant.defaultTenant : String := "default"
def Tenant.defaultCanonicalId : String := "fasts3"

structure IamUser where
  tenantId : String
  name : String
  enabled : Bool
  policies : List String
  groups : List String
deriving Repr, DecidableEq

def IamUser.bootstrapUser : String := "bootstrap"

structure IamGroup where
  tenantId : String
  name : String
  members : List String
  policies : List String
deriving Repr, DecidableEq

/-- A policy without a tenant is one of the constants of the code. -/
structure IamPolicy where
  tenantId : Option String
  name : String
  document : String
deriving Repr, DecidableEq

structure IamRole where
  tenantId : String
  name : String
  policy : String
  assumableBy : List String
deriving Repr, DecidableEq

structure SseKekGenState where
  gen : Nat
  lastRotatedAt : Int
  rewrapDoneGen : Nat
deriving Repr, DecidableEq

end FastS3.Meta
