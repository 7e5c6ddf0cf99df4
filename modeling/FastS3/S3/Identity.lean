import FastS3.S3.PolicyDocument

namespace FastS3.S3

open Data

/-! Policies that are attached to users and groups, for requests on data and for administration.
-/

def cannedDocument (sid : String) (actions : List String) : Value :=
  .object [
    ("Statement", .array [.object [
      ("Action", .array (actions.map .string)),
      ("Effect", .string "Allow"),
      ("Resource", .array [.string "*"]),
      ("Sid", .string sid)]]),
    ("Version", .string "2012-10-17")]

def cannedReadonly : String := "readonly"
def cannedReadwrite : String := "readwrite"
def cannedWriteonly : String := "writeonly"
def cannedDiagnostics : String := "diagnostics"
def cannedConsoleAdmin : String := "consoleAdmin"
def cannedTenantAdmin : String := "tenantAdmin"

def docReadonly : Value :=
  cannedDocument "FastS3ReadOnly" ["s3:Get*", "s3:List*", "s3:Head*"]

def docReadwrite : Value :=
  cannedDocument "FastS3ReadWrite" ["s3:*"]

def docWriteonly : Value :=
  cannedDocument "FastS3WriteOnly"
    ["s3:Put*", "s3:Delete*", "s3:CreateBucket", "s3:Abort*", "s3:Restore*", "s3:Multipart"]

def docDiagnostics : Value :=
  cannedDocument "FastS3Diagnostics" ["admin:List*", "admin:Get*", "s3:Get*", "s3:List*", "s3:Head*"]

def docConsoleAdmin : Value :=
  cannedDocument "FastS3ConsoleAdmin" ["admin:*", "s3:*"]

def docTenantAdmin : Value :=
  cannedDocument "FastS3TenantAdmin"
    ["admin:CreateUser", "admin:ListUsers", "admin:GetUser", "admin:UpdateUser", "admin:DeleteUser",
     "admin:CreateGroup", "admin:ListGroups", "admin:GetGroup", "admin:UpdateGroup",
     "admin:DeleteGroup", "admin:CreatePolicy", "admin:ListPolicies", "admin:GetPolicy",
     "admin:DeletePolicy", "admin:AttachPolicy", "admin:CreateServiceAccount",
     "admin:ListServiceAccounts", "admin:DeleteServiceAccount", "admin:UpdateServiceAccount",
     "admin:CreateRole", "admin:ListRoles", "admin:GetRole", "admin:DeleteRole", "admin:CreateBucket",
     "admin:UpdateBucket", "admin:DeleteBucket", "s3:*"]

def cannedPolicy (name : String) : Option Value :=
  if name = cannedReadonly then some docReadonly
  else if name = cannedReadwrite then some docReadwrite
  else if name = cannedWriteonly then some docWriteonly
  else if name = cannedDiagnostics then some docDiagnostics
  else if name = cannedConsoleAdmin then some docConsoleAdmin
  else if name = cannedTenantAdmin then some docTenantAdmin
  else none

def isCanned (name : String) : Bool :=
  (cannedPolicy name).isSome

def cannedParsed (name : String) : Option Policy :=
  (cannedPolicy name).bind fun document => (Policy.parse (fun _ => none) document).toOption

def tenantActions : List String :=
  ["admin:createtenant", "admin:listtenants", "admin:gettenant", "admin:updatetenant",
   "admin:deletetenant"]

structure IamUserState where
  enabled : Bool
  policies : List String
  groups : List String
deriving Repr, DecidableEq

structure Credentials where
  accessKey : String
  secretKey : String
deriving Repr, DecidableEq

/-- What the service keeps in memory about keys and identities.  A pair is a tenant with a name. -/
structure S3Service where
  keyTable : List Credentials
  policies : String → Option (Option Policy)
  keyOwners : String → Option (String × String)
  embeddedPolicies : String → Option (Option Policy)
  iamUsers : String × String → Option IamUserState
  iamGroups : String × String → Option (List String)
  iamPolicies : String × String → Option Policy
  tenants : String → Option String

namespace S3Service

variable (service : S3Service)

def withGroup (tenant : String) (names : List String) (group : String) : List String :=
  ((service.iamGroups (tenant, group)).getD []).foldl
    (fun names p => if names.contains p then names else names ++ [p]) names

def attachedPolicies (tenant : String) (user : IamUserState) : List String :=
  user.groups.foldl (service.withGroup tenant) user.policies

def resolvePolicy (tenant name : String) : Option Policy :=
  if isCanned name then cannedParsed name else service.iamPolicies (tenant, name)

/-- The loop of `iam_identity_decision`: a policy that cannot be resolved denies. -/
def identityLoop (decision : String → Option Decision) : Bool → List String → Decision
  | allowed, [] => if allowed then .allow else .noMatch
  | allowed, name :: rest =>
    match decision name with
    | some .deny => .deny
    | some .allow => identityLoop decision true rest
    | some .noMatch => identityLoop decision allowed rest
    | none => .deny

/-- `iam_identity_decision`: nothing is decided without an owner, without its record and without
attached policies. -/
def iamIdentityDecision (accessKey action resource : String) (ctx : EvalCtx) : Option Decision :=
  match service.keyOwners accessKey with
  | none => none
  | some (tenant, user) =>
    match service.iamUsers (tenant, user) with
    | none => none
    | some ustate =>
      if ustate.policies.isEmpty && ustate.groups.isEmpty then none
      else
        some (identityLoop
          (fun name => (service.resolvePolicy tenant name).map fun p => p.decide action resource true ctx)
          false (service.attachedPolicies tenant ustate))

/-- The loop of `check_admin_action`: it stops at the first policy that decides. -/
def adminLoop (decision : String → Option Decision) : List String → Bool
  | [] => false
  | name :: rest =>
    match decision name with
    | some .deny | none => false
    | some .allow => true
    | some .noMatch => adminLoop decision rest

def checkAdminAction (tenant user action : String) (targetTenant : Option String) : Bool :=
  match service.iamUsers (tenant, user) with
  | none => false
  | some ustate =>
    if !ustate.enabled then false
    else
      let names := service.attachedPolicies tenant ustate
      let consoleAdmin := names.any fun n => n = cannedConsoleAdmin
      let norm := String.ofList (Text.lower (Text.trim action.toList))
      if !consoleAdmin && tenantActions.contains norm then false
      else if !consoleAdmin && targetTenant.any (fun t => t ≠ tenant) then false
      else
        adminLoop
          (fun name => (service.resolvePolicy tenant name).map fun p => p.decide norm "*" true {}) names

end S3Service

end FastS3.S3
