import FastS3.S3.Identity

namespace FastS3.S3

open Data

/-! Authorization of administrative actions. -/

namespace S3Service

def Attached (service : S3Service) (tenant : String) (user : IamUserState) (name : String) : Prop :=
  name ∈ user.policies ∨
    ∃ group ∈ user.groups, ∃ names, service.iamGroups (tenant, group) = some names ∧ name ∈ names

section Attachments

variable {service : S3Service} {tenant name : String} {names added groups : List String}
  {user : IamUserState}

theorem mem_addMissing :
    name ∈ added.foldl (fun names p => if names.contains p then names else names ++ [p]) names ↔
      name ∈ names ∨ name ∈ added := by
  induction added generalizing names with
  | nil => simp
  | cons p rest ih =>
    rw [List.foldl_cons, ih, List.mem_cons]
    split
    · next known =>
        have held : p ∈ names := List.contains_iff_mem.mp known
        constructor
        · rintro (inside | behind)
          · exact .inl inside
          · exact .inr (.inr behind)
        · rintro (inside | rfl | behind)
          · exact .inl inside
          · exact .inl held
          · exact .inr behind
    · rw [List.mem_append, List.mem_singleton, or_assoc]

theorem mem_withGroups :
    name ∈ groups.foldl (service.withGroup tenant) names ↔
      name ∈ names ∨
        ∃ group ∈ groups, ∃ held, service.iamGroups (tenant, group) = some held ∧ name ∈ held := by
  induction groups generalizing names with
  | nil => simp
  | cons group rest ih =>
    have here : name ∈ (service.iamGroups (tenant, group)).getD [] ↔
        ∃ held, service.iamGroups (tenant, group) = some held ∧ name ∈ held := by
      cases service.iamGroups (tenant, group) <;> simp
    rw [List.foldl_cons, ih, withGroup, mem_addMissing, or_assoc, here]
    simp only [List.mem_cons, exists_eq_or_imp]

theorem mem_attachedPolicies :
    name ∈ service.attachedPolicies tenant user ↔ service.Attached tenant user name :=
  mem_withGroups

end Attachments

def verdict (service : S3Service) (tenant action resource : String) (ctx : EvalCtx) (name : String) :
    Decision :=
  ((service.resolvePolicy tenant name).map fun p => p.decide action resource true ctx).getD .deny

section Loops

variable {decision : String → Option Decision} {names : List String} {allowed : Bool}

theorem identityLoop_eq_tally :
    identityLoop decision allowed names =
      Decision.tally allowed (names.map fun name => (decision name).getD .deny) := by
  induction names generalizing allowed with
  | nil => rfl
  | cons name rest ih =>
    rw [identityLoop, List.map_cons]
    cases found : decision name with
    | none => rfl
    | some vote =>
      cases vote with
      | deny => rfl
      | allow => exact ih
      | noMatch => exact ih

theorem adminLoop_eq_firstAllows :
    adminLoop decision names =
      Decision.firstAllows (names.map fun name => (decision name).getD .deny) := by
  induction names with
  | nil => rfl
  | cons name rest ih =>
    rw [adminLoop, List.map_cons]
    cases found : decision name with
    | none => rfl
    | some vote =>
      cases vote with
      | deny => rfl
      | allow => rfl
      | noMatch => exact ih

end Loops

def normAction (action : String) : String :=
  String.ofList (Text.lower (Text.trim action.toList))

def WithinBoundary (service : S3Service) (tenant : String) (user : IamUserState) (action : String)
    (targetTenant : Option String) : Prop :=
  service.Attached tenant user cannedConsoleAdmin ∨
    normAction action ∉ tenantActions ∧ ∀ target, targetTenant = some target → target = tenant

def Admissible (service : S3Service) (tenant : String) (user : IamUserState) (action : String)
    (targetTenant : Option String) : Prop :=
  user.enabled = true ∧ service.WithinBoundary tenant user action targetTenant

def AdminAllowed (service : S3Service) (tenant name action : String) (targetTenant : Option String) :
    Prop :=
  ∃ user, service.iamUsers (tenant, name) = some user ∧
    service.Admissible tenant user action targetTenant ∧
    (∀ attached, service.Attached tenant user attached → ∃ policy,
      service.resolvePolicy tenant attached = some policy ∧
        policy.decide (normAction action) "*" true {} ≠ .deny) ∧
    ∃ attached, service.Attached tenant user attached ∧ ∃ policy,
      service.resolvePolicy tenant attached = some policy ∧
        policy.decide (normAction action) "*" true {} = .allow

/-- Where the policies are asked, one that denies or is missing comes behind one that allows only if
another such policy comes before. -/
def RefusalsFirst (service : S3Service) (tenant name action : String) (targetTenant : Option String) :
    Prop :=
  ∀ user, service.iamUsers (tenant, name) = some user →
    service.Admissible tenant user action targetTenant →
      Decision.DeniesFirst
        ((service.attachedPolicies tenant user).map (service.verdict tenant (normAction action) "*" {}))

section Check

variable {service : S3Service} {tenant name action : String} {targetTenant : Option String}
  {user : IamUserState}

theorem verdict_eq_deny {resource attached : String} {ctx : EvalCtx} :
    service.verdict tenant action resource ctx attached = .deny ↔
      ¬∃ policy, service.resolvePolicy tenant attached = some policy ∧
        policy.decide action resource true ctx ≠ .deny := by
  rw [verdict]
  cases service.resolvePolicy tenant attached <;> simp

theorem verdict_eq_allow {resource attached : String} {ctx : EvalCtx} :
    service.verdict tenant action resource ctx attached = .allow ↔
      ∃ policy, service.resolvePolicy tenant attached = some policy ∧
        policy.decide action resource true ctx = .allow := by
  rw [verdict]
  cases service.resolvePolicy tenant attached <;> simp

theorem combine_eq_allow_iff :
    Decision.combine
        ((service.attachedPolicies tenant user).map (service.verdict tenant (normAction action) "*" {})) =
          .allow ↔
      (∀ attached, service.Attached tenant user attached → ∃ policy,
        service.resolvePolicy tenant attached = some policy ∧
          policy.decide (normAction action) "*" true {} ≠ .deny) ∧
      ∃ attached, service.Attached tenant user attached ∧ ∃ policy,
        service.resolvePolicy tenant attached = some policy ∧
          policy.decide (normAction action) "*" true {} = .allow := by
  rw [Decision.combine_eq_allow, List.mem_map, List.mem_map]
  simp only [verdict_eq_deny, verdict_eq_allow, mem_attachedPolicies]
  apply and_congr_left
  intro _
  constructor
  · intro none attached held
    by_contra refuses
    exact none ⟨attached, held, refuses⟩
  · rintro all ⟨attached, held, refuses⟩
    exact refuses (all attached held)

theorem consoleAdmin_iff :
    ((service.attachedPolicies tenant user).any fun n => n = cannedConsoleAdmin) = true ↔
      service.Attached tenant user cannedConsoleAdmin := by
  rw [List.any_eq_true, ← mem_attachedPolicies]
  simp only [decide_eq_true_eq, exists_eq_right]

theorem withinBoundary_iff :
    service.WithinBoundary tenant user action targetTenant ↔
      ((!((service.attachedPolicies tenant user).any fun n => n = cannedConsoleAdmin) &&
          tenantActions.contains (normAction action)) = false ∧
        (!((service.attachedPolicies tenant user).any fun n => n = cannedConsoleAdmin) &&
          targetTenant.any fun t => t ≠ tenant) = false) := by
  rw [WithinBoundary, ← consoleAdmin_iff]
  cases (service.attachedPolicies tenant user).any fun n => n = cannedConsoleAdmin with
  | true => simp
  | false =>
    cases targetTenant with
    | none => simp
    | some target => simp

theorem checkAdminAction_iff (found : service.iamUsers (tenant, name) = some user) :
    service.checkAdminAction tenant name action targetTenant = true ↔
      service.Admissible tenant user action targetTenant ∧
        Decision.firstAllows ((service.attachedPolicies tenant user).map
          (service.verdict tenant (normAction action) "*" {})) = true := by
  rw [Admissible, withinBoundary_iff, checkAdminAction, found]
  dsimp only
  rw [adminLoop_eq_firstAllows, ← normAction]
  cases user.enabled with
  | false => simp
  | true =>
    cases !((service.attachedPolicies tenant user).any fun n => n = cannedConsoleAdmin) &&
      tenantActions.contains (normAction action) with
    | true => simp
    | false =>
      cases !((service.attachedPolicies tenant user).any fun n => n = cannedConsoleAdmin) &&
        targetTenant.any fun t => t ≠ tenant with
      | true => simp
      | false =>
        simp only [Bool.not_true, Bool.false_eq_true, if_false, true_and]
        rfl

theorem adminAllowed_iff (found : service.iamUsers (tenant, name) = some user) :
    service.AdminAllowed tenant name action targetTenant ↔
      service.Admissible tenant user action targetTenant ∧
        Decision.combine ((service.attachedPolicies tenant user).map
          (service.verdict tenant (normAction action) "*" {})) = .allow := by
  rw [combine_eq_allow_iff, AdminAllowed, found]
  simp only [Option.some.injEq, exists_eq_left']

/-- The check of an administrative action is that of the deny-overrides combination if and only if
refusals come first. -/
theorem check_iff_allowed :
    (service.checkAdminAction tenant name action targetTenant = true ↔
        service.AdminAllowed tenant name action targetTenant) ↔
      service.RefusalsFirst tenant name action targetTenant := by
  cases found : service.iamUsers (tenant, name) with
  | none =>
    have unchecked : ¬service.checkAdminAction tenant name action targetTenant = true := by
      rw [checkAdminAction, found]
      exact Bool.false_ne_true
    have unallowed : ¬service.AdminAllowed tenant name action targetTenant := by
      rintro ⟨user, known, _⟩
      rw [found] at known
      cases known
    apply iff_of_true (iff_of_false unchecked unallowed)
    intro user known
    rw [found] at known
    cases known
  | some user =>
    rw [checkAdminAction_iff found, adminAllowed_iff found, RefusalsFirst, found]
    simp only [Option.some.injEq, forall_eq']
    by_cases admissible : service.Admissible tenant user action targetTenant
    · simp only [admissible, true_and, forall_const]
      exact Decision.firstAllows_iff_combine
    · simp only [admissible, false_and, iff_self, false_imp_iff]

theorem adminAllowed_iff_identity {accessKey : String}
    (owned : service.keyOwners accessKey = some (tenant, name)) :
    service.AdminAllowed tenant name action targetTenant ↔
      (∃ user, service.iamUsers (tenant, name) = some user ∧
        service.Admissible tenant user action targetTenant) ∧
      service.iamIdentityDecision accessKey (normAction action) "*" {} = some .allow := by
  cases found : service.iamUsers (tenant, name) with
  | none =>
    apply iff_of_false
    · rintro ⟨user, known, _⟩
      rw [found] at known
      cases known
    · rintro ⟨⟨user, known, _⟩, _⟩
      cases known
  | some user =>
    rw [adminAllowed_iff found, iamIdentityDecision, owned]
    simp only [found, Option.some.injEq, exists_eq_left']
    apply and_congr_right
    intro _
    cases bare : user.policies.isEmpty && user.groups.isEmpty with
    | true =>
      rw [Bool.and_eq_true, List.isEmpty_iff, List.isEmpty_iff] at bare
      simp [attachedPolicies, bare.1, bare.2, Decision.combine, Decision.tally]
    | false =>
      simp only [Bool.false_eq_true, if_false, Option.some.injEq]
      rw [identityLoop_eq_tally]
      rfl

end Check

structure Reordered (service other : S3Service) (tenant name : String) : Prop where
  policies : other.iamPolicies = service.iamPolicies
  unknown : service.iamUsers (tenant, name) = none → other.iamUsers (tenant, name) = none
  users : ∀ user, service.iamUsers (tenant, name) = some user → ∃ user',
    other.iamUsers (tenant, name) = some user' ∧ user'.enabled = user.enabled ∧
      user'.policies.Perm user.policies ∧ user'.groups.Perm user.groups
  groups : ∀ group, service.iamGroups (tenant, group) = none ∧ other.iamGroups (tenant, group) = none ∨
    ∃ names names', service.iamGroups (tenant, group) = some names ∧
      other.iamGroups (tenant, group) = some names' ∧ names'.Perm names

section Orders

variable {service other : S3Service} {tenant name action : String} {targetTenant : Option String}

theorem Reordered.attached (reordered : service.Reordered other tenant name) {user user' : IamUserState}
    (policies : user'.policies.Perm user.policies) (groups : user'.groups.Perm user.groups)
    (attached : String) : other.Attached tenant user' attached ↔ service.Attached tenant user attached := by
  have members : ∀ group, (∃ names, other.iamGroups (tenant, group) = some names ∧ attached ∈ names) ↔
      ∃ names, service.iamGroups (tenant, group) = some names ∧ attached ∈ names := by
    intro group
    rcases reordered.groups group with ⟨here, there⟩ | ⟨names, names', here, there, same⟩
    · rw [here, there]
    · rw [here, there]
      simp only [Option.some.injEq, exists_eq_left', same.mem_iff]
  rw [Attached, Attached, policies.mem_iff]
  simp only [groups.mem_iff, members]

theorem Reordered.adminAllowed (reordered : service.Reordered other tenant name) :
    other.AdminAllowed tenant name action targetTenant ↔
      service.AdminAllowed tenant name action targetTenant := by
  have resolve : ∀ attached, other.resolvePolicy tenant attached =
      service.resolvePolicy tenant attached := by
    intro attached
    rw [resolvePolicy, resolvePolicy, reordered.policies]
  cases found : service.iamUsers (tenant, name) with
  | none =>
    have absent := reordered.unknown found
    apply iff_of_false
    · rintro ⟨user, known, _⟩
      rw [absent] at known
      cases known
    · rintro ⟨user, known, _⟩
      rw [found] at known
      cases known
  | some user =>
    obtain ⟨user', found', enabled, policies, groups⟩ := reordered.users user found
    rw [AdminAllowed, AdminAllowed, found, found']
    simp only [Option.some.injEq, exists_eq_left', Admissible, WithinBoundary, enabled, resolve,
      reordered.attached policies groups]

end Orders

/-- For every user and action the check of the administration agrees with the deny-overrides
combination of the attached policies, and with the identity decision of the user's keys, if and only
if a policy that refuses does not come behind the one that decides.  Between two such orders of the
same attachments the check does not change. -/
theorem check_admin_action_iff (service : S3Service) (tenant name action : String)
    (targetTenant : Option String) :
    (((service.checkAdminAction tenant name action targetTenant = true ↔
          service.AdminAllowed tenant name action targetTenant) ∧
        ∀ accessKey, service.keyOwners accessKey = some (tenant, name) →
          (service.checkAdminAction tenant name action targetTenant = true ↔
            (∃ user, service.iamUsers (tenant, name) = some user ∧
              service.Admissible tenant user action targetTenant) ∧
            service.iamIdentityDecision accessKey (normAction action) "*" {} = some .allow)) ↔
      service.RefusalsFirst tenant name action targetTenant) ∧
    ∀ other, service.Reordered other tenant name →
      service.RefusalsFirst tenant name action targetTenant →
      other.RefusalsFirst tenant name action targetTenant →
        other.checkAdminAction tenant name action targetTenant =
          service.checkAdminAction tenant name action targetTenant := by
  constructor
  · constructor
    · rintro ⟨agrees, _⟩
      exact check_iff_allowed.mp agrees
    · intro ordered
      have agrees := check_iff_allowed.mpr ordered
      refine ⟨agrees, ?_⟩
      intro accessKey owned
      rw [agrees, adminAllowed_iff_identity owned]
  · intro other reordered ordered ordered'
    rw [Bool.eq_iff_iff, check_iff_allowed.mpr ordered, check_iff_allowed.mpr ordered',
      reordered.adminAllowed]

def sampleUserDocument (effect : String) : Value :=
  .object [("Statement", .array [.object [("Action", .string "admin:CreateUser"),
    ("Effect", .string effect), ("Resource", .string "*")]])]

def sampleAdminService (attached : List String) : S3Service where
  keyTable := []
  policies := fun _ => none
  keyOwners := fun key => if key = "AKALICE" then some ("default", "alice") else none
  embeddedPolicies := fun _ => none
  iamUsers := fun pair => if pair = ("default", "alice") then some ⟨true, attached, []⟩ else none
  iamGroups := fun _ => none
  iamPolicies := fun pair =>
    if pair = ("default", "operators") then
      (Policy.parse (fun _ => none) (sampleUserDocument "Allow")).toOption
    else if pair = ("default", "freeze") then
      (Policy.parse (fun _ => none) (sampleUserDocument "Deny")).toOption
    else none
  tenants := fun _ => none

/-- A denial behind a permission is not seen: the order of the two policies decides. -/
theorem denial_behind_permission_is_unseen :
    (sampleAdminService ["operators", "freeze"]).checkAdminAction "default" "alice" "admin:CreateUser"
        none = true ∧
      ¬(sampleAdminService ["operators", "freeze"]).AdminAllowed "default" "alice" "admin:CreateUser"
        none ∧
      (sampleAdminService ["freeze", "operators"]).checkAdminAction "default" "alice"
        "admin:CreateUser" none = false ∧
      (sampleAdminService ["operators", "freeze"]).iamIdentityDecision "AKALICE" "admin:CreateUser" "*"
        {} = some .deny := by
  have denied : (sampleAdminService ["operators", "freeze"]).iamIdentityDecision "AKALICE"
      (normAction "admin:CreateUser") "*" {} = some .deny := by
    decide +kernel
  refine ⟨by decide +kernel, ?_, by decide +kernel, by decide +kernel⟩
  intro allowed
  have owned : (sampleAdminService ["operators", "freeze"]).keyOwners "AKALICE" =
      some ("default", "alice") := rfl
  have identity := ((adminAllowed_iff_identity owned).mp allowed).2
  rw [denied] at identity
  cases identity

end S3Service

end FastS3.S3
