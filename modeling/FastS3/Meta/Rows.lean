import FastS3.Data.Footprint
import FastS3.Meta.Op
import Mathlib.Data.String.Basic

namespace FastS3.Meta

open FastS3.Core Data

/-! The rows of the metadata store.

`keys.rs` writes each key as a family tag, the bucket, a NUL byte and the escaped
rest.  Bucket names and upload ids hold no NUL byte, so the parsed keys stand for
the encoded ones.  Rows that are only read or removed through a scan of their
prefix are kept as one table under that prefix.
-/

inductive Key where
  | bucket (name : String)  -- b:
  | location (name : String)  -- l:
  | conf (conf : BucketConf) (bucket : String)  -- bc:, bt:, bo:, ba: and bp:
  | lifecycleRules (bucket : String)  -- r:, by rule id
  | notificationRules (bucket : String)  -- n:, by rule id
  | inventoryRules (bucket : String)  -- iv:, by id
  | object (bucket key : String) (vk : Option Vk)  -- o:, the single key or one of its versions
  | session (uploadId : String)  -- u:
  | sessionIndex (bucket uploadId : String)  -- m:
  | part (uploadId : String) (partNo : Nat)  -- p:
  | events  -- e:, by sequence number
  | restoreJob (seq : Nat)  -- x:
  | stsSession (sessionId : String)  -- s:session
  | ingestJob (id : String)  -- ij:
  | batchJob (id : String)  -- jb:
  | accessKeys  -- k:, by access key
  | tenant (tenantId : String)  -- tn:
  | iamUsers (tenantId : String)  -- iu:, by name
  | iamGroups (tenantId : String)  -- ig:, by name
  | iamPolicies (tenantId : String)  -- ip:, by name
  | iamRoles (tenantId : String)  -- ir:, by name
  | sseKekSeed
  | sseKekGen
  | alloc (seq : Nat)  -- a:
  | txn (seq : Nat)  -- t:
  | binlog (g : Gtid)  -- bl:
  | seq
  | replEpoch
  | replEbase
  | replExecuted
  | replCursor
  | replPending (g : Gtid)
  | replPendingObj (bucket key : String)
  | replRmap (epoch extentId offset len : Nat)
deriving DecidableEq

/-- The value under a key; `none` is an absent row. -/
abbrev Value : Key → Type
  | .bucket _ => Option BucketMeta
  | .location _ => Option String
  | .conf _ _ => Option Bytes
  | .lifecycleRules _ => BTreeMap String LifecycleRule
  | .notificationRules _ => BTreeMap String NotificationRule
  | .inventoryRules _ => BTreeMap String InventoryRule
  | .object _ _ _ => Option ObjectMeta
  | .session _ => Option MultipartSession
  | .sessionIndex _ _ => Option Unit
  | .part _ _ => Option PartMeta
  | .events => BTreeMap Nat EventRecord
  | .restoreJob _ => Option RestoreJob
  | .stsSession _ => Option SessionRecord
  | .ingestJob _ => Option IngestJob
  | .batchJob _ => Option BatchJob
  | .accessKeys => BTreeMap String KeyRecord
  | .tenant _ => Option Tenant
  | .iamUsers _ => BTreeMap String IamUser
  | .iamGroups _ => BTreeMap String IamGroup
  | .iamPolicies _ => BTreeMap String IamPolicy
  | .iamRoles _ => BTreeMap String IamRole
  | .sseKekSeed => Option Bytes
  | .sseKekGen => Option SseKekGenState
  | .alloc _ => Option AllocRecord
  | .txn _ => Option Nat
  | .binlog _ => Option ReplRecord
  | .seq => Option Nat
  | .replEpoch => Option Nat
  | .replEbase => Option Nat
  | .replExecuted => Option GtidSet
  | .replCursor => Option Gtid
  | .replPending _ => Option (List DataRef)
  | .replPendingObj _ _ => Option Unit
  | .replRmap _ _ _ _ => Option (List Segment)

def Value.absent : (key : Key) → Value key
  | .lifecycleRules _ | .notificationRules _ | .inventoryRules _ | .events | .accessKeys
  | .iamUsers _ | .iamGroups _ | .iamPolicies _ | .iamRoles _ => BTreeMap.empty
  | .bucket _ | .location _ | .conf _ _ | .object _ _ _ | .session _ | .sessionIndex _ _
  | .part _ _ | .restoreJob _ | .stsSession _ | .ingestJob _ | .batchJob _ | .tenant _
  | .sseKekSeed | .sseKekGen | .alloc _ | .txn _ | .binlog _ | .seq | .replEpoch | .replEbase
  | .replExecuted | .replCursor | .replPending _ | .replPendingObj _ _ | .replRmap _ _ _ _ => none

abbrev Store := Rows Value

def Store.empty : Store :=
  Value.absent

abbrev MetaTx := Tx Value Error

def tget (key : Key) : MetaTx (Value key) :=
  Tx.read key

def tinsert (key : Key) (value : Value key) : MetaTx Unit :=
  Tx.write key value

def tremove (key : Key) : MetaTx Unit :=
  Tx.write key (Value.absent key)

/-! ### Encoded keys

The length of a raw key appears in error texts. -/

/-- `escape`: no NUL byte is left that is not behind `0xFF`. -/
def escape (raw : Bytes) : Bytes :=
  raw.flatMap fun b => if b = 0x00 then [0xFF, 0x00] else if b = 0xFF then [0xFF, 0xFF] else [b]

/-- `object_key` and `object_version_key`. -/
def objectRawKey (bucket key : String) (vk : Option Vk) : Bytes :=
  utf8 "o:" ++ utf8 bucket ++ [0] ++ escape (utf8 key) ++
    match vk with
    | none => []
    | some vk => 0 :: vk

/-- `to_be_bytes` of a `u32`. -/
def be32 (value : Nat) : Bytes :=
  [(value / 2 ^ 24).toUInt8, (value / 2 ^ 16).toUInt8, (value / 2 ^ 8).toUInt8, value.toUInt8]

/-- `part_key`. -/
def partRawKey (uploadId : String) (partNo : Nat) : Bytes :=
  utf8 "p:" ++ utf8 uploadId ++ [0] ++ be32 partNo

def iamNameMax : Nat := 128

def iamNameChar (c : Char) : Bool :=
  c.isAlphanum || "_+=,.@-".toList.contains c

def validateIamName (name : String) : Except Error Unit :=
  let length := name.utf8ByteSize
  if length = 0 ∨ length > iamNameMax then
    .error (.invalidArgument s!"iam name length must be 1..={iamNameMax}, got {length}")
  else if name.toList.all iamNameChar then .ok ()
  else
    let quoted := name.quote
    .error (.invalidArgument s!"iam name {quoted}: charset must be [A-Za-z0-9_+=,.@-]")

/-- `ingest_job_key` and `batch_job_key`. -/
def validateJobId (kind id : String) : Except Error Unit :=
  if id.utf8ByteSize = 0 ∨ id.utf8ByteSize > 128 ∨ id.toList.contains (Char.ofNat 0) then
    let quoted := id.quote
    .error (.invalidArgument s!"{kind} job id {quoted}: must be 1..=128 bytes without NUL")
  else .ok ()

end FastS3.Meta
