import FastS3.Meta.Membership
import FastS3.S3.AdminAction
import FastS3.S3.Authorize

namespace FastS3.S3

open Data
open Meta (Fate IamGroup IamPolicy IamUser KeyRecord MetaConfig MetaStore Op Store)

/-! Keys and identities, in memory and in the store.

Every change is committed to the store and then made in memory.  A service that starts reads its
memory from the store; a row stands under the names in its record.
-/

def IamUserState.fromUser (user : IamUser) : IamUserState :=
  ⟨user.enabled, user.policies, user.groups⟩

/-- What a service is configured with: initial keys, the parser of policy texts, and the opening of the
stored secrets with the seed of the store. -/
structure CredentialConfig where
  metaConfig : MetaConfig
  initial : List Credentials
  parsePolicy : String → Option Policy
  openCipher : String → Option String

def S3Service.fresh (initial : List Credentials) : S3Service where
  keyTable := initial
  policies _ := none
  keyOwners _ := none
  embeddedPolicies _ := none
  iamUsers _ := none
  iamGroups _ := none
  iamPolicies _ := none
  tenants _ := none

def S3Service.loadCredentials (service : S3Service) (accessKey : String) (secret : Option String) :
    S3Service :=
  match secret with
  | none => service
  | some secret =>
    if service.keyTable.any fun k => k.accessKey = accessKey then service
    else { service with keyTable := service.keyTable ++ [⟨accessKey, secret⟩] }

section Restore

variable (config : CredentialConfig)

/-- A round of the loop over the keys: a disabled key and one whose secret cannot be opened get no
entry in the key table, and an entry that is there stays. -/
def restoreKey (service : S3Service) (row : String × KeyRecord) : S3Service :=
  let (accessKey, rec) := row
  let service := { service with
    policies := Function.update service.policies accessKey
      (some (rec.policy.bind config.parsePolicy))
    keyOwners := Function.update service.keyOwners accessKey (some (rec.tenantId, rec.ownerUser))
    embeddedPolicies := Function.update service.embeddedPolicies accessKey
      (some (rec.embeddedPolicy.bind config.parsePolicy)) }
  if !rec.enabled then service
  else service.loadCredentials accessKey (config.openCipher rec.secretCipher)

def restoreKeysFromMeta (rows : Store) (service : S3Service) : S3Service :=
  (rows .accessKeys).entries.foldl (restoreKey config) { service with
    tenants := fun tenant => (rows (.tenant tenant)).map fun t => t.canonicalId
    iamUsers := fun (tenant, name) => ((rows (.iamUsers tenant)).get? name).map .fromUser
    iamGroups := fun (tenant, name) => ((rows (.iamGroups tenant)).get? name).map fun g => g.policies
    iamPolicies := fun (tenant, name) =>
      ((rows (.iamPolicies tenant)).get? name).bind fun p => config.parsePolicy p.document }

def restored (rows : Store) : S3Service :=
  restoreKeysFromMeta config rows (.fresh config.initial)

end Restore

/-- A secret with the text it is stored as: the store opens it again. -/
structure SealedSecret (config : CredentialConfig) where
  secret : String
  cipher : String
  opens : config.openCipher cipher = some secret

/-- The calls.  Where a secret is sealed or the seed is read, the call carries what became of it; where
users are read back one after another, the number of the reads that succeed. -/
inductive CredentialCall (config : CredentialConfig) where
  | addKeyOwned (accessKey tenantId ownerUser : String) (embeddedPolicy : Option String)
      (secret : Option (SealedSecret config))
  | removeKey (accessKey : String)
  | setKeyEnabled (accessKey : String) (enabled seedRead : Bool)
  | setKeyPolicy (accessKey : String) (policy cipher : Option String)
  | putIamUser (user : IamUser)
  | deleteIamUser (tenant name : String)
  | putIamGroup (group : IamGroup) (reads : Nat)
  | deleteIamGroup (tenant name : String) (reads : Nat)
  | putIamPolicy (policy : IamPolicy)
  | deleteIamPolicy (tenant name : String)

/-- A call with what the store does with its transaction.  A read that fails in front of the
transaction is a refused one. -/
structure CredentialStep (config : CredentialConfig) where
  call : CredentialCall config
  fate : Fate
  now : Int

structure Running where
  service : S3Service
  store : MetaStore

namespace Running

def commit (config : MetaConfig) (state : Running) (fate : Fate) (now : Int) (op : Op)
    (follow : Store → S3Service → S3Service) : Running :=
  match state.store.commit config fate now [op] with
  | (.error _, store) => ⟨state.service, store⟩
  | (.ok _, store) => ⟨follow store.rows state.service, store⟩

end Running

namespace S3Service

variable (service : S3Service)

def putCredentials (accessKey secret : String) : S3Service :=
  { service with
    keyTable := service.keyTable.filter (fun k => k.accessKey ≠ accessKey) ++ [⟨accessKey, secret⟩] }

def dropCredentials (accessKey : String) : S3Service :=
  { service with keyTable := service.keyTable.filter fun k => k.accessKey ≠ accessKey }

/-- `sync_iam_user_from_meta`. -/
def syncIamUser (rows : Store) (tenant : String) (service : S3Service) (name : String) : S3Service :=
  { service with
    iamUsers := Function.update service.iamUsers (tenant, name)
      (((rows (.iamUsers tenant)).get? name).map .fromUser) }

end S3Service

def affectedMembers (old : Option IamGroup) (group : IamGroup) : List String :=
  ((old.map IamGroup.members).getD []).foldl
    (fun affected m => if affected.contains m then affected else affected ++ [m]) group.members

section Calls

variable (config : CredentialConfig) (state : Running) (fate : Fate) (now : Int)

def addKeyOwned (accessKey tenantId ownerUser : String) (embeddedPolicy : Option String)
    (secret : SealedSecret config) : Running :=
  let rec_ : KeyRecord :=
    ⟨accessKey, secret.cipher, true, none, tenantId, ownerUser, embeddedPolicy⟩
  state.commit config.metaConfig fate now (.keyPut accessKey rec_) fun _ service =>
    let service := service.putCredentials accessKey secret.secret
    { service with
      keyOwners := Function.update service.keyOwners accessKey (some (tenantId, ownerUser))
      embeddedPolicies := Function.update service.embeddedPolicies accessKey
        (some (embeddedPolicy.bind config.parsePolicy)) }

def removeKey (accessKey : String) : Running :=
  state.commit config.metaConfig fate now (.keyDelete accessKey) fun _ service =>
    let service := service.dropCredentials accessKey
    { service with
      keyOwners := Function.update service.keyOwners accessKey none
      embeddedPolicies := Function.update service.embeddedPolicies accessKey none }

def setKeyEnabled (accessKey : String) (enabled seedRead : Bool) : Running :=
  match (state.store.rows .accessKeys).get? accessKey with
  | none => state
  | some rec =>
    state.commit config.metaConfig fate now (.keyPut accessKey { rec with enabled := enabled })
      fun _ service =>
        if enabled then
          service.loadCredentials accessKey
            (if seedRead then config.openCipher rec.secretCipher else none)
        else service.dropCredentials accessKey

/-- The record that `set_key_policy` writes to: a key that is only in the key table gets one, of the
hidden user of the default tenant. -/
def policyRecord (accessKey : String) (cipher : Option String) : Option KeyRecord :=
  match (state.store.rows .accessKeys).get? accessKey with
  | some rec => some rec
  | none =>
    match state.service.findKey accessKey, cipher with
    | some _, some cipher => some ⟨accessKey, cipher, true, none, Meta.Tenant.defaultTenant,
        Meta.IamUser.bootstrapUser, none⟩
    | _, _ => none

def setKeyPolicy (accessKey : String) (policy cipher : Option String) : Running :=
  match policyRecord state accessKey cipher with
  | none => state
  | some rec =>
    if policy.any fun text => (config.parsePolicy text).isNone then state
    else
      state.commit config.metaConfig fate now (.keyPut accessKey { rec with policy := policy })
        fun _ service =>
          { service with
            policies := Function.update service.policies accessKey
              (some (policy.bind config.parsePolicy)) }

def putIamUser (user : IamUser) : Running :=
  state.commit config.metaConfig fate now (.iamUserPut user) fun _ service =>
    { service with
      iamUsers := Function.update service.iamUsers (user.tenantId, user.name) (some (.fromUser user)) }

def deleteIamUser (tenant name : String) : Running :=
  state.commit config.metaConfig fate now (.iamUserDelete tenant name) fun _ service =>
    { service with iamUsers := Function.update service.iamUsers (tenant, name) none }

def putIamGroup (group : IamGroup) (reads : Nat) : Running :=
  let old := (state.store.rows (.iamGroups group.tenantId)).get? group.name
  state.commit config.metaConfig fate now (.iamGroupPut group) fun rows service =>
    ((affectedMembers old group).take reads).foldl (S3Service.syncIamUser rows group.tenantId)
      { service with
        iamGroups := Function.update service.iamGroups (group.tenantId, group.name)
          (some group.policies) }

def deleteIamGroup (tenant name : String) (reads : Nat) : Running :=
  match (state.store.rows (.iamGroups tenant)).get? name with
  | none => state
  | some group =>
    state.commit config.metaConfig fate now (.iamGroupDelete tenant name) fun rows service =>
      (group.members.take reads).foldl (S3Service.syncIamUser rows tenant)
        { service with iamGroups := Function.update service.iamGroups (tenant, name) none }

/-- A document that cannot be parsed leaves no entry: what it is attached to is denied. -/
def putIamPolicy (policy : IamPolicy) : Running :=
  match policy.tenantId with
  | none => state
  | some tenant =>
    state.commit config.metaConfig fate now (.iamPolicyPut policy) fun _ service =>
      { service with
        iamPolicies := Function.update service.iamPolicies (tenant, policy.name)
          (config.parsePolicy policy.document) }

def deleteIamPolicy (tenant name : String) : Running :=
  state.commit config.metaConfig fate now (.iamPolicyDelete tenant name) fun _ service =>
    { service with iamPolicies := Function.update service.iamPolicies (tenant, name) none }

end Calls

def Running.step (config : CredentialConfig) (state : Running) (next : CredentialStep config) :
    Running :=
  match next.call with
  | .addKeyOwned accessKey tenantId ownerUser embeddedPolicy secret =>
    match secret with
    | none => state
    | some secret =>
      addKeyOwned config state next.fate next.now accessKey tenantId ownerUser embeddedPolicy secret
  | .removeKey accessKey => removeKey config state next.fate next.now accessKey
  | .setKeyEnabled accessKey enabled seedRead =>
    setKeyEnabled config state next.fate next.now accessKey enabled seedRead
  | .setKeyPolicy accessKey policy cipher =>
    setKeyPolicy config state next.fate next.now accessKey policy cipher
  | .putIamUser user => putIamUser config state next.fate next.now user
  | .deleteIamUser tenant name => deleteIamUser config state next.fate next.now tenant name
  | .putIamGroup group reads => putIamGroup config state next.fate next.now group reads
  | .deleteIamGroup tenant name reads =>
    deleteIamGroup config state next.fate next.now tenant name reads
  | .putIamPolicy policy => putIamPolicy config state next.fate next.now policy
  | .deleteIamPolicy tenant name => deleteIamPolicy config state next.fate next.now tenant name

end FastS3.S3
