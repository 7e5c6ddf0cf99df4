import FastS3.S3.Credentials

namespace FastS3.S3

open Data
open Meta (Fate IamGroup IamPolicy IamUser KeyRecord MetaConfig MetaStore Op Store)

/-! Decisions of a running service and of one that starts from the same store. -/

/-- Two services that no request tells apart.  The policy of a key matters only where the key
table has the key. -/
structure S3Service.Agree (a b : S3Service) : Prop where
  key : ∀ accessKey, a.findKey accessKey = b.findKey accessKey
  policy : ∀ accessKey, (a.findKey accessKey).isSome = true →
    a.keyPolicyOf accessKey = b.keyPolicyOf accessKey
  embedded : ∀ accessKey, a.embeddedPolicyOf accessKey = b.embeddedPolicyOf accessKey
  owner : ∀ accessKey, a.keyOwners accessKey = b.keyOwners accessKey
  user : ∀ named, a.iamUsers named = b.iamUsers named
  group : ∀ named, a.iamGroups named = b.iamGroups named
  custom : ∀ named, a.iamPolicies named = b.iamPolicies named
  tenant : ∀ tenant, a.tenants tenant = b.tenants tenant

namespace S3Service

variable {a b : S3Service}

theorem verify_known {unknown accessKey : String} {signature : Signature}
    (passed : a.verify unknown none signature = .ok accessKey) :
    (a.findKey accessKey).isSome = true := by
  rw [verify] at passed
  cases wrong : signature.malformed with
  | some e => rw [wrong] at passed; cases passed
  | none =>
    cases found : a.findKey signature.accessKey with
    | none => simp [wrong, found] at passed
    | some credentials =>
      cases mismatch : signature.mismatch credentials.secretKey with
      | some e => simp [wrong, found, mismatch] at passed
      | none =>
        simp only [wrong, found, Option.map_some, Option.orElse_none, mismatch] at passed
        cases passed
        rw [found]
        rfl

namespace Agree

variable (agree : a.Agree b)

include agree

theorem verify_eq (unknown : String) (given : Option String) (signature : Signature) :
    a.verify unknown given signature = b.verify unknown given signature := by
  simp only [verify, agree.key]

variable (accessKey : String)

theorem ownerDisabled_eq : a.iamOwnerDisabled accessKey = b.iamOwnerDisabled accessKey := by
  simp only [iamOwnerDisabled, iamUserDisabled, agree.owner, agree.user]

theorem residentIdentity_eq : a.residentIdentity accessKey = b.residentIdentity accessKey := by
  simp only [residentIdentity, agree.ownerDisabled_eq]

theorem authenticateSession_eq (around : Surroundings) (rows : Store) (token : String)
    (request : Presented) :
    a.authenticateSession around rows token request =
      b.authenticateSession around rows token request := by
  have header : ∀ given, a.verifyHeaderAuth given request.header =
      b.verifyHeaderAuth given request.header := by
    intro given
    cases request.header with
    | none => rfl
    | some signature => simp only [verifyHeaderAuth, agree.verify_eq]
  simp only [authenticateSession, agree.ownerDisabled_eq, agree.key, header]

theorem authenticateFull_eq (around : Surroundings) (rows : Store) (request : Presented) :
    a.authenticateFull around rows request = b.authenticateFull around rows request := by
  have header : a.verifyHeaderAuth none request.header = b.verifyHeaderAuth none request.header := by
    cases request.header with
    | none => rfl
    | some signature => simp only [verifyHeaderAuth, agree.verify_eq]
  have query : a.verifyQueryAuth request.query = b.verifyQueryAuth request.query := by
    cases request.query with
    | none => rfl
    | some signature => simp only [verifyQueryAuth, agree.verify_eq]
  simp only [authenticateFull, agree.authenticateSession_eq, header, query,
    agree.residentIdentity_eq]

theorem attachedPolicies_eq (tenant : String) (user : IamUserState) :
    a.attachedPolicies tenant user = b.attachedPolicies tenant user := by
  have round : a.withGroup tenant = b.withGroup tenant := by
    funext names group
    rw [withGroup, withGroup, agree.group]
  rw [attachedPolicies, attachedPolicies, round]

theorem iamIdentityDecision_eq (accessKey action resource : String) (ctx : EvalCtx) :
    a.iamIdentityDecision accessKey action resource ctx =
      b.iamIdentityDecision accessKey action resource ctx := by
  have resolve : ∀ tenant name, a.resolvePolicy tenant name = b.resolvePolicy tenant name := by
    intro tenant name
    rw [resolvePolicy, resolvePolicy, agree.custom]
  simp only [iamIdentityDecision, agree.owner, agree.user, agree.attachedPolicies_eq, resolve]

theorem callerIdentity_eq : a.callerIdentity accessKey = b.callerIdentity accessKey := by
  simp only [callerIdentity, agree.owner, agree.tenant]

theorem authorize_eq {auth : Option AuthIdentity}
    (known : ∀ identity, auth = some identity → (a.findKey identity.who).isSome = true)
    (around : Surroundings) (target : Target) :
    a.authorize around auth target = b.authorize around auth target := by
  have caller : a.callerIdentity = b.callerIdentity := funext agree.callerIdentity_eq
  have embedded : a.embeddedPolicyOf = b.embeddedPolicyOf := funext agree.embedded
  have owner : a.keyOwners = b.keyOwners := funext agree.owner
  have policy : (auth.map AuthIdentity.who).bind a.keyPolicyOf =
      (auth.map AuthIdentity.who).bind b.keyPolicyOf := by
    cases auth with
    | none => rfl
    | some identity => exact agree.policy identity.who (known identity rfl)
  simp only [authorize, policy, embedded, caller, owner, agree.iamIdentityDecision_eq]

end Agree

variable {accessKey : String} {identity : AuthIdentity}

theorem verifyHeaderAuth_known {signature : Option Signature}
    (passed : a.verifyHeaderAuth none signature = .ok (some accessKey)) :
    (a.findKey accessKey).isSome = true := by
  cases signature with
  | none => cases passed
  | some signature =>
    rw [verifyHeaderAuth] at passed
    cases verified : a.verify "The AWS access key ID you provided does not exist in our records."
        none signature with
    | error e => rw [verified] at passed; cases passed
    | ok signer =>
      rw [verified] at passed
      cases passed
      exact verify_known verified

theorem verifyQueryAuth_known {signature : Option Signature}
    (passed : a.verifyQueryAuth signature = .ok (some accessKey)) :
    (a.findKey accessKey).isSome = true := by
  cases signature with
  | none => cases passed
  | some signature =>
    rw [verifyQueryAuth] at passed
    cases verified : a.verify "The AWS access key ID you provided does not exist"
        none signature with
    | error e => rw [verified] at passed; cases passed
    | ok signer =>
      rw [verified] at passed
      cases passed
      exact verify_known verified

theorem residentIdentity_known (found : (a.findKey accessKey).isSome = true)
    (passed : a.residentIdentity accessKey = .ok (some identity)) :
    (a.findKey identity.who).isSome = true := by
  rw [residentIdentity] at passed
  split at passed
  · cases passed
  · cases passed
    exact found

theorem authenticateSession_known {around : Surroundings} {rows : Store} {token : String}
    {request : Presented}
    (passed : a.authenticateSession around rows token request = .ok (some identity)) :
    (a.findKey identity.who).isSome = true := by
  rw [authenticateSession] at passed
  split at passed
  · cases passed
  · split at passed
    · cases passed
    · next rec _ =>
        split at passed
        · cases passed
        · split at passed
          · cases passed
          · dsimp only at passed
            split at passed
            · cases passed
            · split at passed
              · cases passed
              · split at passed
                · cases passed
                · split at passed
                  · cases passed
                  · next credentials found =>
                      split at passed
                      · cases passed
                      · split at passed
                        · cases passed
                        · cases passed
                        · cases passed
                          rw [found]
                          rfl

theorem authenticateFull_known {around : Surroundings} {rows : Store} {request : Presented}
    (passed : a.authenticateFull around rows request = .ok (some identity)) :
    (a.findKey identity.who).isSome = true := by
  rw [authenticateFull] at passed
  cases token : request.token with
  | some token =>
    rw [token] at passed
    exact authenticateSession_known passed
  | none =>
    simp only [token] at passed
    cases header : a.verifyHeaderAuth none request.header with
    | error e => rw [header] at passed; cases passed
    | ok signer =>
      cases signer with
      | some accessKey =>
        simp only [header] at passed
        exact residentIdentity_known (verifyHeaderAuth_known header) passed
      | none =>
        simp only [header] at passed
        cases query : a.verifyQueryAuth request.query with
        | error e => rw [query] at passed; cases passed
        | ok signer =>
          cases signer with
          | none => rw [query] at passed; cases passed
          | some accessKey =>
            simp only [query] at passed
            exact residentIdentity_known (verifyQueryAuth_known query) passed

theorem bind_agree {ε α β : Type} {first : Except ε α} {next other : α → Except ε β}
    (same : ∀ value, first = .ok value → next value = other value) :
    (first >>= next) = (first >>= other) := by
  cases first with
  | error e => rfl
  | ok value => exact same value rfl

theorem Agree.decideRequest_eq (agree : a.Agree b) (around : Surroundings) (rows : Store)
    (request : Presented) (target : Target) :
    a.decideRequest around rows request target = b.decideRequest around rows request target := by
  rw [decideRequest, decideRequest, ← agree.authenticateFull_eq]
  apply bind_agree
  intro auth passed
  have known : ∀ identity, auth = some identity → (a.findKey identity.who).isSome = true := by
    intro identity same
    rw [same] at passed
    exact authenticateFull_known passed
  rw [agree.authorize_eq known]

end S3Service

section Restored

variable {config : CredentialConfig} {service : S3Service} {rows : Store}

def initialKey (config : CredentialConfig) (accessKey : String) : Option Credentials :=
  config.initial.find? fun k => k.accessKey = accessKey

def storedKey (config : CredentialConfig) (accessKey : String) (rec : KeyRecord) : Option Credentials :=
  if rec.enabled then (config.openCipher rec.secretCipher).map fun secret => ⟨accessKey, secret⟩
  else none

def keyRecord (rows : Store) (accessKey : String) : Option KeyRecord :=
  (rows .accessKeys).get? accessKey

/-- The memory of a service is what the store says.  The policy of a key that is neither stored nor
initial does not count. -/
structure Coherent (config : CredentialConfig) (service : S3Service) (rows : Store) : Prop where
  key : ∀ accessKey, service.findKey accessKey =
    (initialKey config accessKey).or ((keyRecord rows accessKey).bind (storedKey config accessKey))
  policy : ∀ accessKey, (initialKey config accessKey).isSome = true ∨
      (keyRecord rows accessKey).isSome = true →
    service.keyPolicyOf accessKey =
      (keyRecord rows accessKey).bind fun rec => rec.policy.bind config.parsePolicy
  embedded : ∀ accessKey, service.embeddedPolicyOf accessKey =
    (keyRecord rows accessKey).bind fun rec => rec.embeddedPolicy.bind config.parsePolicy
  owner : ∀ accessKey, service.keyOwners accessKey =
    (keyRecord rows accessKey).map fun rec => (rec.tenantId, rec.ownerUser)
  user : ∀ tenant name, service.iamUsers (tenant, name) =
    ((rows (.iamUsers tenant)).get? name).map .fromUser
  group : ∀ tenant name, service.iamGroups (tenant, name) =
    ((rows (.iamGroups tenant)).get? name).map fun g => g.policies
  custom : ∀ tenant name, service.iamPolicies (tenant, name) =
    ((rows (.iamPolicies tenant)).get? name).bind fun p => config.parsePolicy p.document
  tenant : ∀ tenant, service.tenants tenant = (rows (.tenant tenant)).map fun t => t.canonicalId

theorem Coherent.agree {other : S3Service} (coherent : Coherent config service rows)
    (also : Coherent config other rows) : service.Agree other where
  key accessKey := by rw [coherent.key, also.key]
  policy accessKey found := by
    have held : (initialKey config accessKey).isSome = true ∨
        (keyRecord rows accessKey).isSome = true := by
      rw [coherent.key] at found
      cases initial : initialKey config accessKey with
      | some credentials => exact .inl rfl
      | none =>
        cases stored : keyRecord rows accessKey with
        | some rec => exact .inr rfl
        | none => rw [initial, stored] at found; cases found
    rw [coherent.policy accessKey held, also.policy accessKey held]
  embedded accessKey := by rw [coherent.embedded, also.embedded]
  owner accessKey := by rw [coherent.owner, also.owner]
  user named := by rw [coherent.user, also.user]
  group named := by rw [coherent.group, also.group]
  custom named := by rw [coherent.custom, also.custom]
  tenant tenant := by rw [coherent.tenant, also.tenant]

variable {other accessKey : String}

theorem findKey_append {table : List Credentials} {secret : String} :
    (table ++ [Credentials.mk accessKey secret]).find? (fun k => k.accessKey = other) =
      (table.find? fun k => k.accessKey = other).or
        (if other = accessKey then some ⟨accessKey, secret⟩ else none) := by
  rw [List.find?_append]
  by_cases same : other = accessKey
  · rw [if_pos same, List.find?_cons_of_pos (by rw [same]; exact decide_eq_true rfl)]
  · rw [if_neg same, List.find?_cons_of_neg (by simpa using fun e => same e.symm)]
    rfl

theorem any_iff_findKey :
    (service.keyTable.any fun k => k.accessKey = accessKey) = (service.findKey accessKey).isSome := by
  rw [S3Service.findKey, List.isSome_find?]

theorem loadCredentials_findKey {secret : Option String} :
    (service.loadCredentials accessKey secret).findKey other =
      if other = accessKey then
        (service.findKey accessKey).or (secret.map fun secret => ⟨accessKey, secret⟩)
      else service.findKey other := by
  cases secret with
  | none =>
    by_cases same : other = accessKey
    · rw [if_pos same, same]
      cases found : service.findKey accessKey <;> rw [S3Service.loadCredentials, found] <;> rfl
    · rw [if_neg same]
      rfl
  | some secret =>
    rw [S3Service.loadCredentials, any_iff_findKey]
    split
    · next known =>
        by_cases same : other = accessKey
        · obtain ⟨credentials, found⟩ := Option.isSome_iff_exists.mp known
          rw [if_pos same, same, found]
          rfl
        · rw [if_neg same]
    · next unknown =>
        by_cases same : other = accessKey
        · rw [if_pos same, same]
          change (service.keyTable ++ [_]).find? _ = _
          rw [findKey_append, if_pos rfl]
          rfl
        · rw [if_neg same]
          change (service.keyTable ++ [_]).find? _ = _
          rw [findKey_append, if_neg same, Option.or_none]
          rfl

theorem dropCredentials_findKey :
    (service.dropCredentials accessKey).findKey other =
      if other = accessKey then none else service.findKey other := by
  change (service.keyTable.filter fun k => k.accessKey ≠ accessKey).find? _ = _
  rw [List.find?_filter]
  by_cases same : other = accessKey
  · rw [if_pos same, List.find?_eq_none]
    intro k _ both
    simp only [decide_eq_true_eq] at both
    exact both.1 (both.2.trans same)
  · rw [if_neg same, S3Service.findKey]
    congr 1
    funext k
    grind

theorem putCredentials_findKey {secret : String} :
    (service.putCredentials accessKey secret).findKey other =
      if other = accessKey then some ⟨accessKey, secret⟩ else service.findKey other := by
  have table : (service.putCredentials accessKey secret).findKey other =
      ((service.dropCredentials accessKey).keyTable ++ [Credentials.mk accessKey secret]).find?
        fun k => k.accessKey = other := rfl
  rw [table, findKey_append, ← S3Service.findKey, dropCredentials_findKey]
  by_cases same : other = accessKey
  · rw [if_pos same, if_pos same, if_pos same, Option.none_or]
  · rw [if_neg same, if_neg same, if_neg same, Option.or_none]

theorem restoreKey_findKey {rec_ : KeyRecord} :
    (restoreKey config service (accessKey, rec_)).findKey other =
      if other = accessKey then (service.findKey accessKey).or (storedKey config accessKey rec_)
      else service.findKey other := by
  rw [restoreKey, storedKey]
  cases enabled : rec_.enabled with
  | false =>
    by_cases same : other = accessKey
    · rw [if_pos same, same]
      simp only [Bool.not_false, Bool.false_eq_true, if_true, if_false, Option.or_none]
      rfl
    · rw [if_neg same]
      rfl
  | true =>
    simp only [Bool.not_true, Bool.false_eq_true, if_true, if_false]
    exact loadCredentials_findKey

theorem loadCredentials_rest (service : S3Service) (accessKey : String) (secret : Option String) :
    ∃ table, service.loadCredentials accessKey secret = { service with keyTable := table } := by
  cases secret with
  | none => exact ⟨service.keyTable, rfl⟩
  | some secret =>
    rw [S3Service.loadCredentials]
    split
    · exact ⟨service.keyTable, rfl⟩
    · exact ⟨_, rfl⟩

theorem restoreKey_rest (config : CredentialConfig) (service : S3Service) (accessKey : String)
    (rec_ : KeyRecord) :
    ∃ table, restoreKey config service (accessKey, rec_) = { service with
      keyTable := table
      policies := Function.update service.policies accessKey
        (some (rec_.policy.bind config.parsePolicy))
      keyOwners := Function.update service.keyOwners accessKey
        (some (rec_.tenantId, rec_.ownerUser))
      embeddedPolicies := Function.update service.embeddedPolicies accessKey
        (some (rec_.embeddedPolicy.bind config.parsePolicy)) } := by
  rw [restoreKey]
  split
  · exact ⟨service.keyTable, rfl⟩
  · obtain ⟨table, loaded⟩ := loadCredentials_rest { service with
      policies := Function.update service.policies accessKey
        (some (rec_.policy.bind config.parsePolicy))
      keyOwners := Function.update service.keyOwners accessKey
        (some (rec_.tenantId, rec_.ownerUser))
      embeddedPolicies := Function.update service.embeddedPolicies accessKey
        (some (rec_.embeddedPolicy.bind config.parsePolicy)) } accessKey
      (config.openCipher rec_.secretCipher)
    exact ⟨table, loaded⟩

theorem restoreKeys_spec (config : CredentialConfig) (service : S3Service)
    {entries : List (String × KeyRecord)}
    (sorted : entries.Pairwise fun a b => a.1 < b.1) :
    let after := entries.foldl (restoreKey config) service
    (∀ accessKey, after.findKey accessKey = (service.findKey accessKey).or
        ((BTreeMap.findEntry accessKey entries).bind (storedKey config accessKey)) ∧
      after.policies accessKey = ((BTreeMap.findEntry accessKey entries).map fun rec =>
        rec.policy.bind config.parsePolicy).or (service.policies accessKey) ∧
      after.embeddedPolicies accessKey = ((BTreeMap.findEntry accessKey entries).map fun rec =>
        rec.embeddedPolicy.bind config.parsePolicy).or (service.embeddedPolicies accessKey) ∧
      after.keyOwners accessKey = ((BTreeMap.findEntry accessKey entries).map fun rec =>
        (rec.tenantId, rec.ownerUser)).or (service.keyOwners accessKey)) ∧
    after.iamUsers = service.iamUsers ∧ after.iamGroups = service.iamGroups ∧
      after.iamPolicies = service.iamPolicies ∧ after.tenants = service.tenants := by
  induction entries generalizing service with
  | nil =>
    refine ⟨?_, rfl, rfl, rfl, rfl⟩
    intro accessKey
    exact ⟨(Option.or_none).symm, rfl, rfl, rfl⟩
  | cons entry rest ih =>
    obtain ⟨name, rec_⟩ := entry
    obtain ⟨below, ordered⟩ := List.pairwise_cons.mp sorted
    have once : BTreeMap.findEntry name rest = none := by
      apply BTreeMap.findEntry_eq_none
      intro entry member
      exact ne_of_lt (below entry member)
    obtain ⟨table, round⟩ := restoreKey_rest config service name rec_
    obtain ⟨keys, users, groups, customs, tenants⟩ :=
      ih (restoreKey config service (name, rec_)) ordered
    refine ⟨?_, by rw [List.foldl_cons, users, round], by rw [List.foldl_cons, groups, round],
      by rw [List.foldl_cons, customs, round], by rw [List.foldl_cons, tenants, round]⟩
    intro accessKey
    obtain ⟨key, policy, embedded, owner⟩ := keys accessKey
    rw [List.foldl_cons, key, policy, embedded, owner, restoreKey_findKey, round]
    by_cases same : accessKey = name
    · subst same
      simp only [if_true, once, BTreeMap.findEntry, Option.bind_none, Option.or_none,
        Option.bind_some, Option.map_none, Option.none_or, Function.update_self, Option.map_some,
        Option.some_or, and_self]
    · simp only [if_neg same, BTreeMap.findEntry, Function.update_of_ne same, and_self]

theorem restored_coherent : Coherent config (restored config rows) rows := by
  obtain ⟨keys, users, groups, customs, tenants⟩ := restoreKeys_spec config { S3Service.fresh
      config.initial with
    tenants := fun tenant => (rows (.tenant tenant)).map fun t => t.canonicalId
    iamUsers := fun named => ((rows (.iamUsers named.1)).get? named.2).map .fromUser
    iamGroups := fun named => ((rows (.iamGroups named.1)).get? named.2).map fun g => g.policies
    iamPolicies := fun named =>
      ((rows (.iamPolicies named.1)).get? named.2).bind fun p => config.parsePolicy p.document }
    (rows .accessKeys).sorted
  constructor
  · intro accessKey
    exact (keys accessKey).1
  · intro accessKey _
    have policy := (keys accessKey).2.1
    change (restored config rows).policies accessKey = _ at policy
    rw [S3Service.keyPolicyOf, policy, keyRecord, BTreeMap.get?]
    cases BTreeMap.findEntry accessKey (rows .accessKeys).entries <;> rfl
  · intro accessKey
    have embedded := (keys accessKey).2.2.1
    change (restored config rows).embeddedPolicies accessKey = _ at embedded
    rw [S3Service.embeddedPolicyOf, embedded, keyRecord, BTreeMap.get?]
    cases BTreeMap.findEntry accessKey (rows .accessKeys).entries <;> rfl
  · intro accessKey
    have owner := (keys accessKey).2.2.2
    change (restored config rows).keyOwners accessKey = _ at owner
    rw [owner, keyRecord, BTreeMap.get?]
    exact Option.or_none
  · intro tenant name
    exact congrFun users (tenant, name)
  · intro tenant name
    exact congrFun groups (tenant, name)
  · intro tenant name
    exact congrFun customs (tenant, name)
  · intro tenant
    exact congrFun tenants tenant

end Restored

/-- The rows of two stores are alike but for the queue of events and the progress of the log. -/
def Settled (rows other : Store) : Prop :=
  ∀ key, key.progress = false → key ≠ .events → rows key = other key

section Transactions

variable {config : CredentialConfig} {state : Running} {fate : Fate} {now : Int} {op : Op}
  {follow : Store → S3Service → S3Service}

theorem commit_coherent (flushed : ∀ message, fate ≠ .unflushed message)
    (coherent : Coherent config state.service state.store.rows)
    (goes : ∀ seq after rows, Meta.applyOp false seq op state.store.rows = .ok ((), after) →
      Settled rows after → Coherent config (follow rows state.service) rows) :
    Coherent config (state.commit config.metaConfig fate now op follow).service
      (state.commit config.metaConfig fate now op follow).store.rows := by
  rw [Running.commit, MetaStore.commit]
  cases ran : Meta.applyOps (.commit config.metaConfig.replBinlog now) [op] state.store.rows with
  | error e => exact coherent
  | ok result =>
    obtain ⟨seq, rows⟩ := result
    cases fate with
    | refused message => exact coherent
    | unflushed message => exact absurd rfl (flushed message)
    | kept trimmed =>
      obtain ⟨last, body, rest⟩ := Meta.applyOps_rows ran
      obtain ⟨_, middle, single, done⟩ := Tx.bind_eq_ok.mp body
      cases Tx.pure_eq_ok.mp done
      apply goes _ _ _ single
      intro key plain quiet
      exact (MetaStore.settle_frame config.metaConfig _ _ _ quiet).trans (rest key plain)

theorem commit_refused {message : String} :
    state.commit config.metaConfig (.refused message) now op follow = state := by
  rw [Running.commit, MetaStore.commit]
  cases Meta.applyOps (.commit config.metaConfig.replBinlog now) [op] state.store.rows with
  | error e => rfl
  | ok result => rfl

end Transactions

section Rows

variable {before after : Store}

theorem keyPut_rows {replay : Bool} {seq : Nat} {accessKey : String} {rec_ : KeyRecord}
    (run : Meta.applyOp replay seq (.keyPut accessKey rec_) before = .ok ((), after)) :
    after = Function.update before .accessKeys ((before .accessKeys).insert accessKey rec_) := by
  have rest := Meta.tget_bind_ok.mp run
  cases Meta.tinsert_eq_ok.mp rest
  rfl

theorem keyDelete_rows {replay : Bool} {seq : Nat} {accessKey : String}
    (run : Meta.applyOp replay seq (.keyDelete accessKey) before = .ok ((), after)) :
    (keyRecord before accessKey).isSome = true ∧
      after = Function.update before .accessKeys ((before .accessKeys).erase accessKey) := by
  have rest := Meta.tget_bind_ok.mp run
  split at rest
  · exact absurd rest Tx.throw_ne_ok
  · next known =>
      cases Meta.tinsert_eq_ok.mp rest
      rw [Option.isNone_iff_eq_none, ← ne_eq, Option.ne_none_iff_isSome] at known
      exact ⟨known, rfl⟩

variable {user tenant name tenantId : String} {group : IamGroup}

theorem joinGroup_others {member : String}
    (run : Meta.joinGroup group member before = .ok ((), after))
    (other : ¬(tenant = group.tenantId ∧ user = member)) :
    (after (.iamUsers tenant)).get? user = (before (.iamUsers tenant)).get? user := by
  obtain ⟨users, _, read, rest⟩ := Tx.bind_eq_ok.mp (Meta.named_ok.mp run).2
  cases Meta.tget_eq_ok.mp read
  cases found : (before (.iamUsers group.tenantId)).get? member with
  | none =>
    simp only [found] at rest
    exact absurd rest Tx.throw_ne_ok
  | some record =>
    simp only [found] at rest
    split at rest
    · cases Tx.pure_eq_ok.mp rest
      rfl
    · cases Meta.tinsert_eq_ok.mp rest
      by_cases here : tenant = group.tenantId
      · subst here
        rw [Function.update_self, BTreeMap.get?_insert, if_neg fun same => other ⟨rfl, same⟩]
      · rw [Meta.update_users_of_ne here]

theorem leaveGroup_others {member : String}
    (run : Meta.leaveGroup tenantId name member before = .ok ((), after))
    (other : ¬(tenant = tenantId ∧ user = member)) :
    (after (.iamUsers tenant)).get? user = (before (.iamUsers tenant)).get? user := by
  obtain ⟨users, _, read, rest⟩ := Tx.bind_eq_ok.mp (Meta.named_ok.mp run).2
  cases Meta.tget_eq_ok.mp read
  cases found : (before (.iamUsers tenantId)).get? member with
  | none =>
    simp only [found] at rest
    cases Tx.pure_eq_ok.mp rest
    rfl
  | some record =>
    simp only [found] at rest
    cases Meta.tinsert_eq_ok.mp rest
    by_cases here : tenant = tenantId
    · subst here
      rw [Function.update_self, BTreeMap.get?_insert, if_neg fun same => other ⟨rfl, same⟩]
    · rw [Meta.update_users_of_ne here]

theorem members_others {step : String → Meta.MetaTx Unit} {members : List String}
    (each : ∀ member start middle, step member start = .ok ((), middle) →
      ¬(tenant = tenantId ∧ user = member) →
      (middle (.iamUsers tenant)).get? user = (start (.iamUsers tenant)).get? user)
    (run : members.forM step before = .ok ((), after))
    (other : ¬(tenant = tenantId ∧ user ∈ members)) :
    (after (.iamUsers tenant)).get? user = (before (.iamUsers tenant)).get? user := by
  apply Tx.forM_keeps (P := fun rows => (rows (.iamUsers tenant)).get? user =
    (before (.iamUsers tenant)).get? user) _ run rfl
  intro member inside start middle ran held
  rw [← held]
  apply each member start middle ran
  intro both
  exact other ⟨both.1, both.2 ▸ inside⟩

theorem iamGroupPut_rows (run : Meta.iamGroupPut group before = .ok ((), after)) :
    (∀ key, (∀ tenant, key ≠ .iamUsers tenant) → key ≠ .iamGroups group.tenantId →
      after key = before key) ∧
    after (.iamGroups group.tenantId) =
      (before (.iamGroups group.tenantId)).insert group.name group ∧
    ∀ tenant user, ¬(tenant = group.tenantId ∧
        user ∈ affectedMembers ((before (.iamGroups group.tenantId)).get? group.name) group) →
      (after (.iamUsers tenant)).get? user = (before (.iamUsers tenant)).get? user := by
  obtain ⟨groups, _, read, rest⟩ :=
    Tx.bind_eq_ok.mp (Meta.named_ok.mp (Meta.named_ok.mp run).2).2
  cases Meta.tget_eq_ok.mp read
  obtain ⟨_, joined, joins, rest⟩ := Tx.bind_eq_ok.mp rest
  obtain ⟨_, left, leaves, rest⟩ := Tx.bind_eq_ok.mp rest
  cases Meta.tinsert_eq_ok.mp rest
  refine ⟨?_, Function.update_self _ _ _, ?_⟩
  · intro key noUsers noGroups
    rw [Function.update_of_ne noGroups, Meta.leaveGroups_frame leaves (noUsers _),
      Meta.joinGroups_frame joins (noUsers _)]
  · intro tenant user outside
    rw [affectedMembers, S3Service.mem_addMissing] at outside
    rw [Function.update_of_ne Meta.Key.noConfusion, members_others (fun _ _ _ => leaveGroup_others) leaves,
      members_others (fun _ _ _ => joinGroup_others) joins]
    · intro both
      exact outside ⟨both.1, .inl both.2⟩
    · intro both
      apply outside
      refine ⟨both.1, .inr ?_⟩
      cases old : (before (.iamGroups group.tenantId)).get? group.name with
      | none => rw [old] at both; exact absurd both.2 List.not_mem_nil
      | some old' =>
        rw [old] at both
        exact (List.mem_filter.mp both.2).1

theorem iamGroupDelete_rows (found : (before (.iamGroups tenantId)).get? name = some group)
    (run : Meta.iamGroupDelete tenantId name before = .ok ((), after)) :
    (∀ key, (∀ tenant, key ≠ .iamUsers tenant) → key ≠ .iamGroups tenantId →
      after key = before key) ∧
    after (.iamGroups tenantId) = (before (.iamGroups tenantId)).erase name ∧
    ∀ tenant user, ¬(tenant = tenantId ∧ user ∈ group.members) →
      (after (.iamUsers tenant)).get? user = (before (.iamUsers tenant)).get? user := by
  obtain ⟨groups, _, read, rest⟩ :=
    Tx.bind_eq_ok.mp (Meta.named_ok.mp (Meta.named_ok.mp run).2).2
  cases Meta.tget_eq_ok.mp read
  simp only [found] at rest
  obtain ⟨_, left, leaves, rest⟩ := Tx.bind_eq_ok.mp rest
  cases Meta.tinsert_eq_ok.mp rest
  refine ⟨?_, Function.update_self _ _ _, ?_⟩
  · intro key noUsers noGroups
    rw [Function.update_of_ne noGroups, Meta.leaveGroups_frame leaves (noUsers _)]
  · intro tenant user outside
    rw [Function.update_of_ne Meta.Key.noConfusion, 
      members_others (fun _ _ _ => leaveGroup_others) leaves outside]

theorem iamPolicyDelete_rows (run : Meta.iamPolicyDelete tenantId name before = .ok ((), after)) :
    after = Function.update before (.iamPolicies tenantId)
      ((before (.iamPolicies tenantId)).erase name) := by
  obtain ⟨policies, _, read, rest⟩ :=
    Tx.bind_eq_ok.mp (Meta.named_ok.mp (Meta.named_ok.mp run).2).2
  cases Meta.tget_eq_ok.mp read
  split at rest
  · exact absurd rest Tx.throw_ne_ok
  · have rest := Meta.tget_bind_ok.mp rest
    have rest := Meta.tget_bind_ok.mp rest
    split at rest
    · exact absurd rest Tx.throw_ne_ok
    · cases Meta.tinsert_eq_ok.mp rest
      rfl

end Rows

section Keeps

variable {config : CredentialConfig} {service changed : S3Service} {rows after : Store}

theorem Coherent.settle (coherent : Coherent config service after) (settled : Settled rows after) :
    Coherent config service rows where
  key accessKey := by
    rw [coherent.key, keyRecord, keyRecord, settled .accessKeys rfl Meta.Key.noConfusion]
  policy accessKey held := by
    rw [keyRecord, settled .accessKeys rfl Meta.Key.noConfusion]
    rw [keyRecord, settled .accessKeys rfl Meta.Key.noConfusion] at held
    exact coherent.policy accessKey held
  embedded accessKey := by
    rw [coherent.embedded, keyRecord, keyRecord, settled .accessKeys rfl Meta.Key.noConfusion]
  owner accessKey := by
    rw [coherent.owner, keyRecord, keyRecord, settled .accessKeys rfl Meta.Key.noConfusion]
  user tenant name := by
    rw [coherent.user, settled (.iamUsers tenant) rfl Meta.Key.noConfusion]
  group tenant name := by
    rw [coherent.group, settled (.iamGroups tenant) rfl Meta.Key.noConfusion]
  custom tenant name := by
    rw [coherent.custom, settled (.iamPolicies tenant) rfl Meta.Key.noConfusion]
  tenant tenant := by
    rw [coherent.tenant, settled (.tenant tenant) rfl Meta.Key.noConfusion]

structure S3Service.Remembers (service : S3Service) (config : CredentialConfig) (accessKey : String)
    (rec : Option KeyRecord) : Prop where
  key : service.findKey accessKey =
    (initialKey config accessKey).or (rec.bind (storedKey config accessKey))
  policy : (initialKey config accessKey).isSome = true ∨ rec.isSome = true →
    service.keyPolicyOf accessKey = rec.bind fun rec => rec.policy.bind config.parsePolicy
  embedded : service.embeddedPolicyOf accessKey =
    rec.bind fun rec => rec.embeddedPolicy.bind config.parsePolicy
  owner : service.keyOwners accessKey = rec.map fun rec => (rec.tenantId, rec.ownerUser)

theorem Coherent.rekey (coherent : Coherent config service rows) {accessKey : String}
    {keys : BTreeMap String KeyRecord} {rec : Option KeyRecord}
    (row : ∀ other, keys.get? other = if other = accessKey then rec else keyRecord rows other)
    (here : changed.Remembers config accessKey rec)
    (elsewhere : ∀ other, other ≠ accessKey → changed.findKey other = service.findKey other ∧
      changed.keyPolicyOf other = service.keyPolicyOf other ∧
      changed.embeddedPolicyOf other = service.embeddedPolicyOf other ∧
      changed.keyOwners other = service.keyOwners other)
    (identities : changed.iamUsers = service.iamUsers ∧ changed.iamGroups = service.iamGroups ∧
      changed.iamPolicies = service.iamPolicies ∧ changed.tenants = service.tenants) :
    Coherent config changed (Function.update rows .accessKeys keys) := by
  obtain ⟨users, groups, customs, tenants⟩ := identities
  have record : ∀ other, keyRecord (Function.update rows .accessKeys keys) other =
      if other = accessKey then rec else keyRecord rows other := by
    intro other
    rw [keyRecord, Function.update_self]
    exact row other
  have remembers : ∀ other, changed.Remembers config other
      (if other = accessKey then rec else keyRecord rows other) := by
    intro other
    by_cases same : other = accessKey
    · rw [if_pos same, same]
      exact here
    · obtain ⟨key, policy, embedded, owner⟩ := elsewhere other same
      rw [if_neg same]
      exact ⟨key.trans (coherent.key other), fun held => policy.trans (coherent.policy other held),
        embedded.trans (coherent.embedded other), owner.trans (coherent.owner other)⟩
  constructor
  · intro other
    rw [record]
    exact (remembers other).key
  · intro other
    rw [record]
    exact (remembers other).policy
  · intro other
    rw [record]
    exact (remembers other).embedded
  · intro other
    rw [record]
    exact (remembers other).owner
  · intro tenant name
    rw [users, Function.update_of_ne Meta.Key.noConfusion]
    exact coherent.user tenant name
  · intro tenant name
    rw [groups, Function.update_of_ne Meta.Key.noConfusion]
    exact coherent.group tenant name
  · intro tenant name
    rw [customs, Function.update_of_ne Meta.Key.noConfusion]
    exact coherent.custom tenant name
  · intro tenant
    rw [tenants, Function.update_of_ne Meta.Key.noConfusion]
    exact coherent.tenant tenant

theorem Coherent.identities (coherent : Coherent config service rows)
    (keyRows : after .accessKeys = rows .accessKeys)
    (tenantRows : ∀ tenant, after (.tenant tenant) = rows (.tenant tenant))
    (users : ∀ tenant name, changed.iamUsers (tenant, name) =
      ((after (.iamUsers tenant)).get? name).map .fromUser)
    (groups : ∀ tenant name, changed.iamGroups (tenant, name) =
      ((after (.iamGroups tenant)).get? name).map fun g => g.policies)
    (customs : ∀ tenant name, changed.iamPolicies (tenant, name) =
      ((after (.iamPolicies tenant)).get? name).bind fun p => config.parsePolicy p.document)
    (memory : ∃ iamUsers iamGroups iamPolicies, changed = { service with
      iamUsers := iamUsers, iamGroups := iamGroups, iamPolicies := iamPolicies }) :
    Coherent config changed after := by
  have record : keyRecord after = keyRecord rows := by
    funext accessKey
    rw [keyRecord, keyRecord, keyRows]
  obtain ⟨_, _, _, rfl⟩ := memory
  constructor
  · rw [record]
    exact coherent.key
  · rw [record]
    exact coherent.policy
  · rw [record]
    exact coherent.embedded
  · rw [record]
    exact coherent.owner
  · exact users
  · exact groups
  · exact customs
  · intro tenant
    rw [tenantRows]
    exact coherent.tenant tenant

theorem syncIamUsers_eq (tenant : String) (names : List String) (service : S3Service) :
    names.foldl (S3Service.syncIamUser rows tenant) service = { service with
      iamUsers := fun named =>
        if named.1 = tenant ∧ named.2 ∈ names then
          ((rows (.iamUsers tenant)).get? named.2).map .fromUser
        else service.iamUsers named } := by
  induction names generalizing service with
  | nil =>
    simp only [List.not_mem_nil, and_false, if_false]
    rfl
  | cons name names ih =>
    rw [List.foldl_cons, ih, S3Service.syncIamUser]
    congr 1
    funext named
    obtain ⟨other, user⟩ := named
    by_cases listed : other = tenant ∧ user ∈ names
    · rw [if_pos listed, if_pos ⟨listed.1, List.mem_cons_of_mem _ listed.2⟩]
    · rw [if_neg listed]
      dsimp only
      by_cases same : (other, user) = (tenant, name)
      · cases same
        rw [Function.update_self, if_pos ⟨rfl, List.mem_cons_self⟩]
      · rw [Function.update_of_ne same, if_neg]
        rintro ⟨sameTenant, member⟩
        rcases List.mem_cons.mp member with sameName | member
        · exact same (Prod.ext sameTenant sameName)
        · exact listed ⟨sameTenant, member⟩

/-- What is remembered of the records of a tenant, once the one of a name is stored or removed. -/
theorem update_remembered {V W : Type} {cache : String × String → W}
    {stored now : String → BTreeMap String V} {tenant name : String} {value : W} (read : Option V → W)
    (held : ∀ tenant name, cache (tenant, name) = read ((stored tenant).get? name))
    (elsewhere : ∀ other, other ≠ tenant → now other = stored other)
    (here : ∀ other, read ((now tenant).get? other) =
      if other = name then value else read ((stored tenant).get? other)) (other named : String) :
    Function.update cache (tenant, name) value (other, named) = read ((now other).get? named) := by
  by_cases inside : other = tenant
  · subst inside
    rw [here]
    by_cases same : named = name
    · rw [if_pos same, same, Function.update_self]
    · rw [if_neg same, Function.update_of_ne fun both => same (Prod.mk.inj both).2]
      exact held _ _
  · rw [elsewhere other inside, Function.update_of_ne fun both => inside (Prod.mk.inj both).1]
    exact held _ _

theorem Coherent.users (coherent : Coherent config service rows) {tenant name : String}
    {users : BTreeMap String IamUser} {held : Option IamUserState}
    (row : ∀ other, (users.get? other).map IamUserState.fromUser =
      if other = name then held else ((rows (.iamUsers tenant)).get? other).map .fromUser) :
    Coherent config
      { service with iamUsers := Function.update service.iamUsers (tenant, name) held }
      (Function.update rows (.iamUsers tenant) users) := by
  refine coherent.identities (Function.update_of_ne Meta.Key.noConfusion _ _)
    (fun _ => Function.update_of_ne Meta.Key.noConfusion _ _) ?_ ?_ ?_ ⟨_, _, _, rfl⟩
  · refine update_remembered (Option.map IamUserState.fromUser) coherent.user
      (fun _ elsewhere => Meta.update_users_of_ne elsewhere) fun other => ?_
    rw [Function.update_self]
    exact row other
  · intro tenant name
    rw [Function.update_of_ne Meta.Key.noConfusion]
    exact coherent.group tenant name
  · intro tenant name
    rw [Function.update_of_ne Meta.Key.noConfusion]
    exact coherent.custom tenant name

theorem Coherent.regrouped {tenant name : String} {members : List String}
    {policies : Option (List String)} {before : Store} (coherent : Coherent config service before)
    (settled : Settled rows after)
    (others : ∀ key, (∀ tenant, key ≠ .iamUsers tenant) → key ≠ .iamGroups tenant →
      after key = before key)
    (row : ∀ other, ((after (.iamGroups tenant)).get? other).map IamGroup.policies =
      if other = name then policies
      else ((before (.iamGroups tenant)).get? other).map IamGroup.policies)
    (users : ∀ other user, ¬(other = tenant ∧ user ∈ members) →
      (after (.iamUsers other)).get? user = (before (.iamUsers other)).get? user) :
    Coherent config
      (members.foldl (S3Service.syncIamUser rows tenant)
        { service with
          iamGroups := Function.update service.iamGroups (tenant, name) policies }) rows := by
  rw [syncIamUsers_eq]
  refine coherent.identities ?_ ?_ ?_ ?_ ?_ ⟨_, _, _, rfl⟩
  · rw [settled .accessKeys rfl Meta.Key.noConfusion,
      others _ (fun _ => Meta.Key.noConfusion) Meta.Key.noConfusion]
  · intro other
    rw [settled (.tenant other) rfl Meta.Key.noConfusion,
      others _ (fun _ => Meta.Key.noConfusion) Meta.Key.noConfusion]
  · intro other user
    dsimp only
    split
    · next listed => rw [listed.1]
    · next unlisted =>
        rw [settled (.iamUsers other) rfl Meta.Key.noConfusion, users other user unlisted]
        exact coherent.user other user
  · refine update_remembered (Option.map IamGroup.policies) coherent.group ?_ fun other => ?_
    · intro other elsewhere
      rw [settled (.iamGroups other) rfl Meta.Key.noConfusion]
      exact others _ (fun _ => Meta.Key.noConfusion) fun same =>
        elsewhere (Meta.Key.iamGroups.inj same)
    · rw [settled (.iamGroups tenant) rfl Meta.Key.noConfusion]
      exact row other
  · intro other user
    rw [settled (.iamPolicies other) rfl Meta.Key.noConfusion,
      others _ (fun _ => Meta.Key.noConfusion) Meta.Key.noConfusion]
    exact coherent.custom other user

theorem Coherent.customs (coherent : Coherent config service rows) {tenant name : String}
    {policies : BTreeMap String IamPolicy} {parsed : Option Policy}
    (row : ∀ other, (policies.get? other).bind (fun p => config.parsePolicy p.document) =
      if other = name then parsed
      else ((rows (.iamPolicies tenant)).get? other).bind fun p =>
        config.parsePolicy p.document) :
    Coherent config
      { service with
        iamPolicies := Function.update service.iamPolicies (tenant, name) parsed }
      (Function.update rows (.iamPolicies tenant) policies) := by
  refine coherent.identities (Function.update_of_ne Meta.Key.noConfusion _ _)
    (fun _ => Function.update_of_ne Meta.Key.noConfusion _ _) ?_ ?_ ?_ ⟨_, _, _, rfl⟩
  · intro tenant name
    rw [Function.update_of_ne Meta.Key.noConfusion]
    exact coherent.user tenant name
  · intro tenant name
    rw [Function.update_of_ne Meta.Key.noConfusion]
    exact coherent.group tenant name
  · refine update_remembered (fun found => found.bind fun p : IamPolicy => config.parsePolicy p.document)
      coherent.custom ?_ fun other => ?_
    · intro other elsewhere
      exact Function.update_of_ne (fun same => elsewhere (Meta.Key.iamPolicies.inj same)) _ _
    · rw [Function.update_self]
      exact row other

end Keeps

section Steps

variable {config : CredentialConfig} {state : Running} {fate : Fate} {now : Int}

variable (flushed : ∀ message, fate ≠ .unflushed message)
  (coherent : Coherent config state.service state.store.rows)

include flushed coherent

variable {accessKey name tenant : String}

theorem addKeyOwned_coherent {tenantId ownerUser : String} {embeddedPolicy : Option String}
    {secret : SealedSecret config} (free : state.service.keyPolicyOf accessKey = none)
    (own : ∀ initial, initialKey config accessKey = some initial →
      initial.secretKey = secret.secret) :
    Coherent config
      (addKeyOwned config state fate now accessKey tenantId ownerUser embeddedPolicy secret).service
      (addKeyOwned config state fate now accessKey tenantId ownerUser embeddedPolicy secret).store.rows := by
  apply commit_coherent flushed coherent
  intro seq after rows run settled
  refine Coherent.settle ?_ settled
  rw [keyPut_rows run]
  refine coherent.rekey (fun other => BTreeMap.get?_insert _ accessKey other _) ?_ ?_
    ⟨rfl, rfl, rfl, rfl⟩
  · constructor
    · change (state.service.putCredentials accessKey secret.secret).findKey accessKey = _
      rw [putCredentials_findKey, if_pos rfl]
      cases initial : initialKey config accessKey with
      | some credentials =>
        have named : credentials.accessKey = accessKey := by
          simpa using List.find?_some initial
        rw [Option.some_or, ← own credentials initial, ← named]
      | none =>
        rw [Option.none_or, Option.bind_some, storedKey, if_pos rfl, secret.opens]
        rfl
    · intro _
      exact free
    · change (Function.update state.service.embeddedPolicies accessKey _ accessKey).join = _
      rw [Function.update_self]
      rfl
    · exact Function.update_self _ _ _
  · intro other elsewhere
    refine ⟨?_, rfl, ?_, Function.update_of_ne elsewhere _ _⟩
    · change (state.service.putCredentials accessKey secret.secret).findKey other = _
      rw [putCredentials_findKey, if_neg elsewhere]
    · change (Function.update state.service.embeddedPolicies accessKey _ other).join = _
      rw [Function.update_of_ne elsewhere]
      rfl

theorem removeKey_coherent
    (removable : initialKey config accessKey = none ∨ keyRecord state.store.rows accessKey = none) :
    Coherent config (removeKey config state fate now accessKey).service
      (removeKey config state fate now accessKey).store.rows := by
  apply commit_coherent flushed coherent
  intro seq after rows run settled
  obtain ⟨known, erased⟩ := keyDelete_rows run
  have absent : initialKey config accessKey = none := by
    rcases removable with absent | unknown
    · exact absent
    · rw [unknown] at known
      cases known
  refine Coherent.settle ?_ settled
  rw [erased]
  refine coherent.rekey (fun other => BTreeMap.get?_erase _ accessKey other) ?_ ?_
    ⟨rfl, rfl, rfl, rfl⟩
  · constructor
    · change (state.service.dropCredentials accessKey).findKey accessKey = _
      rw [dropCredentials_findKey, if_pos rfl, absent]
      rfl
    · rw [absent]
      rintro (impossible | impossible) <;> cases impossible
    · change (Function.update state.service.embeddedPolicies accessKey _ accessKey).join = _
      rw [Function.update_self]
      rfl
    · exact Function.update_self _ _ _
  · intro other elsewhere
    refine ⟨?_, rfl, ?_, Function.update_of_ne elsewhere _ _⟩
    · change (state.service.dropCredentials accessKey).findKey other = _
      rw [dropCredentials_findKey, if_neg elsewhere]
    · change (Function.update state.service.embeddedPolicies accessKey _ other).join = _
      rw [Function.update_of_ne elsewhere]
      rfl

theorem setKeyEnabled_coherent {enabled seedRead : Bool}
    (disable : enabled = false → initialKey config accessKey = none ∨
      keyRecord state.store.rows accessKey = none)
    (enable : enabled = true → seedRead = true ∨ (state.service.findKey accessKey).isSome = true) :
    Coherent config (setKeyEnabled config state fate now accessKey enabled seedRead).service
      (setKeyEnabled config state fate now accessKey enabled seedRead).store.rows := by
  rw [setKeyEnabled]
  cases found : (state.store.rows .accessKeys).get? accessKey with
  | none => exact coherent
  | some rec_ =>
    have record : keyRecord state.store.rows accessKey = some rec_ := found
    have held := coherent.key accessKey
    rw [record, Option.bind_some, storedKey] at held
    apply commit_coherent flushed coherent
    intro seq after rows run settled
    refine Coherent.settle ?_ settled
    rw [keyPut_rows run]
    have remembered : ∀ changed : S3Service,
        changed.findKey accessKey = (initialKey config accessKey).or
          (storedKey config accessKey { rec_ with enabled := enabled }) →
        changed.policies = state.service.policies →
        changed.embeddedPolicies = state.service.embeddedPolicies →
        changed.keyOwners = state.service.keyOwners →
        changed.Remembers config accessKey (some { rec_ with enabled := enabled }) := by
      intro changed key policies embedded owners
      constructor
      · exact key
      · intro _
        rw [S3Service.keyPolicyOf, policies, ← S3Service.keyPolicyOf,
          coherent.policy accessKey (.inr (by rw [record]; rfl)), record]
        rfl
      · rw [S3Service.embeddedPolicyOf, embedded, ← S3Service.embeddedPolicyOf,
          coherent.embedded, record]
        rfl
      · rw [owners, coherent.owner, record]
        rfl
    cases enabled with
    | false =>
      rw [if_neg Bool.false_ne_true]
      refine coherent.rekey (fun other => BTreeMap.get?_insert _ accessKey other _) ?_ ?_
        ⟨rfl, rfl, rfl, rfl⟩
      · refine remembered (state.service.dropCredentials accessKey) ?_ rfl rfl rfl
        have absent : initialKey config accessKey = none := by
          rcases disable rfl with absent | unknown
          · exact absent
          · rw [record] at unknown
            cases unknown
        rw [dropCredentials_findKey, if_pos rfl, absent]
        rfl
      · intro other elsewhere
        refine ⟨?_, rfl, rfl, rfl⟩
        rw [dropCredentials_findKey, if_neg elsewhere]
    | true =>
      rw [if_pos rfl]
      obtain ⟨table, loaded⟩ := loadCredentials_rest state.service accessKey
        (if seedRead then config.openCipher rec_.secretCipher else none)
      refine coherent.rekey (fun other => BTreeMap.get?_insert _ accessKey other _) ?_ ?_
        (by rw [loaded]; exact ⟨rfl, rfl, rfl, rfl⟩)
      · refine remembered (state.service.loadCredentials accessKey _) ?_ (by rw [loaded])
          (by rw [loaded]) (by rw [loaded])
        rw [loadCredentials_findKey, if_pos rfl, storedKey, if_pos rfl]
        cases seedRead with
        | true =>
          rw [if_pos rfl, held]
          cases initialKey config accessKey with
          | some credentials => rfl
          | none =>
            cases rec_.enabled with
            | false => rfl
            | true =>
              rw [Option.none_or, Option.none_or, if_pos rfl]
              exact Option.or_self
        | false =>
          have known : (state.service.findKey accessKey).isSome = true := by
            rcases enable rfl with impossible | known
            · cases impossible
            · exact known
          rw [if_neg Bool.false_ne_true, Option.map_none, Option.or_none, held]
          rw [held] at known
          cases initial : initialKey config accessKey with
          | some credentials => rfl
          | none =>
            rw [initial, Option.none_or] at known
            split at known
            · next enabledBefore => rw [if_pos enabledBefore]
            · cases known
      · intro other elsewhere
        refine ⟨?_, by rw [loaded]; rfl, by rw [loaded]; rfl, by rw [loaded]⟩
        rw [loadCredentials_findKey, if_neg elsewhere]

theorem setKeyPolicy_coherent {policy cipher : Option String}
    (stored : (keyRecord state.store.rows accessKey).isSome = true ∨
      policyRecord state accessKey cipher = none ∨
      policy.any (fun text => (config.parsePolicy text).isNone) = true) :
    Coherent config (setKeyPolicy config state fate now accessKey policy cipher).service
      (setKeyPolicy config state fate now accessKey policy cipher).store.rows := by
  rw [setKeyPolicy]
  cases found : policyRecord state accessKey cipher with
  | none => exact coherent
  | some rec_ =>
    dsimp only
    split
    · exact coherent
    · next valid =>
        have record : keyRecord state.store.rows accessKey = some rec_ := by
          rcases stored with known | stopped | invalid
          · obtain ⟨held, record⟩ := Option.isSome_iff_exists.mp known
            have row : (state.store.rows .accessKeys).get? accessKey = some held := record
            have same : some held = some rec_ := by
              simpa only [policyRecord, row] using found
            exact record.trans same
          · rw [found] at stopped
            cases stopped
          · exact absurd invalid valid
        have held := coherent.key accessKey
        apply commit_coherent flushed coherent
        intro seq after rows run settled
        refine Coherent.settle ?_ settled
        rw [keyPut_rows run]
        refine coherent.rekey (fun other => BTreeMap.get?_insert _ accessKey other _) ?_ ?_
          ⟨rfl, rfl, rfl, rfl⟩
        · constructor
          · rw [record] at held
            exact held
          · intro _
            change (Function.update state.service.policies accessKey _ accessKey).join = _
            rw [Function.update_self]
            rfl
          · have embedded := coherent.embedded accessKey
            rw [record] at embedded
            exact embedded
          · have owner := coherent.owner accessKey
            rw [record] at owner
            exact owner
        · intro other elsewhere
          refine ⟨rfl, ?_, rfl, rfl⟩
          change (Function.update state.service.policies accessKey _ other).join = _
          rw [Function.update_of_ne elsewhere]
          rfl

theorem putIamUser_coherent {user : IamUser} :
    Coherent config (putIamUser config state fate now user).service
      (putIamUser config state fate now user).store.rows := by
  apply commit_coherent flushed coherent
  intro seq after rows run settled
  refine Coherent.settle ?_ settled
  have rest := Meta.tget_bind_ok.mp (Meta.named_ok.mp (Meta.named_ok.mp run).2).2
  cases Meta.tinsert_eq_ok.mp rest
  apply coherent.users
  intro other
  rw [BTreeMap.get?_insert]
  split <;> rfl

theorem deleteIamUser_coherent :
    Coherent config (deleteIamUser config state fate now tenant name).service
      (deleteIamUser config state fate now tenant name).store.rows := by
  apply commit_coherent flushed coherent
  intro seq after rows run settled
  refine Coherent.settle ?_ settled
  rw [Meta.iamUserDelete_ok run]
  apply coherent.users
  intro other
  rw [BTreeMap.get?_erase]
  split <;> rfl

theorem putIamGroup_coherent {group : IamGroup} {reads : Nat}
    (enough : (affectedMembers ((state.store.rows (.iamGroups group.tenantId)).get? group.name)
      group).length ≤ reads) :
    Coherent config (putIamGroup config state fate now group reads).service
      (putIamGroup config state fate now group reads).store.rows := by
  apply commit_coherent flushed coherent
  intro seq after rows run settled
  obtain ⟨others, groups, users⟩ := iamGroupPut_rows run
  rw [List.take_of_length_le enough]
  refine coherent.regrouped settled others ?_ users
  intro other
  rw [groups, BTreeMap.get?_insert]
  split <;> rfl

theorem deleteIamGroup_coherent {reads : Nat}
    (enough : ∀ group, (state.store.rows (.iamGroups tenant)).get? name = some group →
      group.members.length ≤ reads) :
    Coherent config (deleteIamGroup config state fate now tenant name reads).service
      (deleteIamGroup config state fate now tenant name reads).store.rows := by
  rw [deleteIamGroup]
  cases found : (state.store.rows (.iamGroups tenant)).get? name with
  | none => exact coherent
  | some group =>
    apply commit_coherent flushed coherent
    intro seq after rows run settled
    obtain ⟨others, groups, users⟩ := iamGroupDelete_rows found run
    rw [List.take_of_length_le (enough group found)]
    refine coherent.regrouped settled others ?_ users
    intro other
    rw [groups, BTreeMap.get?_erase]
    split <;> rfl

theorem putIamPolicy_coherent {policy : IamPolicy} :
    Coherent config (putIamPolicy config state fate now policy).service
      (putIamPolicy config state fate now policy).store.rows := by
  rw [putIamPolicy]
  cases owner : policy.tenantId with
  | none => exact coherent
  | some tenant =>
    apply commit_coherent flushed coherent
    intro seq after rows run settled
    refine Coherent.settle ?_ settled
    simp only [Meta.applyOp, owner] at run
    obtain ⟨policies, _, read, rest⟩ :=
      Tx.bind_eq_ok.mp (Meta.named_ok.mp (Meta.named_ok.mp run).2).2
    cases Meta.tget_eq_ok.mp read
    cases Meta.tinsert_eq_ok.mp rest
    apply coherent.customs
    intro other
    rw [BTreeMap.get?_insert]
    split <;> rfl

theorem deleteIamPolicy_coherent :
    Coherent config (deleteIamPolicy config state fate now tenant name).service
      (deleteIamPolicy config state fate now tenant name).store.rows := by
  apply commit_coherent flushed coherent
  intro seq after rows run settled
  refine Coherent.settle ?_ settled
  rw [iamPolicyDelete_rows run]
  apply coherent.customs
  intro other
  rw [BTreeMap.get?_erase]
  split <;> rfl

end Steps

/-- The calls whose effect in memory is that of a fresh start.  Their transaction leaves no trace, or it
is not kept with an error; a key is added only while no policy is remembered for it, and an initial key
keeps its secret and is neither removed nor disabled; the policy of a key goes to a record that is there;
and the reads behind a transaction go through. -/
def CredentialStep.Kept (config : CredentialConfig) (state : Running) (next : CredentialStep config) :
    Prop :=
  (∃ message, next.fate = .refused message) ∨
  (∀ message, next.fate ≠ .unflushed message) ∧
    match next.call with
    | .addKeyOwned accessKey _ _ _ secret =>
      ∀ sealed, secret = some sealed → state.service.keyPolicyOf accessKey = none ∧
        ∀ initial, initialKey config accessKey = some initial → initial.secretKey = sealed.secret
    | .removeKey accessKey =>
      initialKey config accessKey = none ∨ keyRecord state.store.rows accessKey = none
    | .setKeyEnabled accessKey enabled seedRead =>
      (enabled = false → initialKey config accessKey = none ∨
        keyRecord state.store.rows accessKey = none) ∧
      (enabled = true → seedRead = true ∨ (state.service.findKey accessKey).isSome = true)
    | .setKeyPolicy accessKey policy cipher =>
      (keyRecord state.store.rows accessKey).isSome = true ∨
        policyRecord state accessKey cipher = none ∨
        policy.any (fun text => (config.parsePolicy text).isNone) = true
    | .putIamGroup group reads =>
      (affectedMembers ((state.store.rows (.iamGroups group.tenantId)).get? group.name)
        group).length ≤ reads
    | .deleteIamGroup tenant name reads =>
      ∀ group, (state.store.rows (.iamGroups tenant)).get? name = some group →
        group.members.length ≤ reads
    | _ => True

theorem step_refused {config : CredentialConfig} {state : Running} {next : CredentialStep config}
    {message : String} (refused : next.fate = .refused message) : state.step config next = state := by
  obtain ⟨call, fate, now⟩ := next
  cases refused
  cases call with
  | addKeyOwned accessKey tenantId ownerUser embeddedPolicy secret =>
    cases secret with
    | none => rfl
    | some secret =>
      change addKeyOwned config state _ _ _ _ _ _ _ = state
      rw [addKeyOwned]
      exact commit_refused
  | removeKey accessKey =>
    change removeKey config state _ _ _ = state
    rw [removeKey]
    exact commit_refused
  | setKeyEnabled accessKey enabled seedRead =>
    change setKeyEnabled config state _ _ _ _ _ = state
    rw [setKeyEnabled]
    split
    · rfl
    · exact commit_refused
  | setKeyPolicy accessKey policy cipher =>
    change setKeyPolicy config state _ _ _ _ _ = state
    rw [setKeyPolicy]
    split
    · rfl
    · split
      · rfl
      · exact commit_refused
  | deleteIamGroup tenant name reads =>
    change deleteIamGroup config state _ _ _ _ _ = state
    rw [deleteIamGroup]
    split
    · rfl
    · exact commit_refused
  | putIamPolicy policy =>
    change putIamPolicy config state _ _ _ = state
    rw [putIamPolicy]
    split
    · rfl
    · exact commit_refused
  | putIamUser user =>
    change putIamUser config state _ _ _ = state
    rw [putIamUser]
    exact commit_refused
  | deleteIamUser tenant name =>
    change deleteIamUser config state _ _ _ _ = state
    rw [deleteIamUser]
    exact commit_refused
  | putIamGroup group reads =>
    change putIamGroup config state _ _ _ _ = state
    rw [putIamGroup]
    exact commit_refused
  | deleteIamPolicy tenant name =>
    change deleteIamPolicy config state _ _ _ _ = state
    rw [deleteIamPolicy]
    exact commit_refused

theorem step_coherent {config : CredentialConfig} {state : Running} {next : CredentialStep config}
    (coherent : Coherent config state.service state.store.rows) (kept : next.Kept config state) :
    Coherent config (state.step config next).service (state.step config next).store.rows := by
  rcases kept with ⟨message, refused⟩ | ⟨flushed, condition⟩
  · rw [step_refused refused]
    exact coherent
  · obtain ⟨call, fate, now⟩ := next
    cases call with
    | addKeyOwned accessKey tenantId ownerUser embeddedPolicy secret =>
      cases secret with
      | none => exact coherent
      | some secret =>
        obtain ⟨free, own⟩ := condition secret rfl
        exact addKeyOwned_coherent flushed coherent free own
    | removeKey accessKey => exact removeKey_coherent flushed coherent condition
    | setKeyEnabled accessKey enabled seedRead =>
      exact setKeyEnabled_coherent flushed coherent condition.1 condition.2
    | setKeyPolicy accessKey policy cipher => exact setKeyPolicy_coherent flushed coherent condition
    | putIamUser user => exact putIamUser_coherent flushed coherent
    | deleteIamUser tenant name => exact deleteIamUser_coherent flushed coherent
    | putIamGroup group reads => exact putIamGroup_coherent flushed coherent condition
    | deleteIamGroup tenant name reads => exact deleteIamGroup_coherent flushed coherent condition
    | putIamPolicy policy => exact putIamPolicy_coherent flushed coherent
    | deleteIamPolicy tenant name => exact deleteIamPolicy_coherent flushed coherent

def DecidesAsRestored (config : CredentialConfig) (state : Running) : Prop :=
  ∀ (around : Surroundings) (request : Presented),
    state.service.authenticateFull around state.store.rows request =
      (restored config state.store.rows).authenticateFull around state.store.rows request ∧
    ∀ target, state.service.decideRequest around state.store.rows request target =
      (restored config state.store.rows).decideRequest around state.store.rows request target

/-- Along a run of kept calls from a restored service, every request fares at every time as it would
after a restart. -/
theorem credentials_decide_as_restored (config : CredentialConfig) (store : MetaStore)
    {calls : List (CredentialStep config)}
    (kept : EveryStep (Running.step config) (fun state next => next.Kept config state)
      ⟨restored config store.rows, store⟩ calls) :
    AlwaysHolds (Running.step config) (DecidesAsRestored config)
      ⟨restored config store.rows, store⟩ calls := by
  have coherent : AlwaysHolds (Running.step config)
      (fun state => Coherent config state.service state.store.rows)
      ⟨restored config store.rows, store⟩ calls :=
    alwaysHolds_of_keeps (fun _ _ => step_coherent) restored_coherent kept
  intro earlier later split around request
  have agree := (coherent earlier later split).agree restored_coherent
  exact ⟨agree.authenticateFull_eq around _ request, agree.decideRequest_eq around _ request⟩

def denyAllText : String :=
  "\x7b\"Statement\": [\x7b\"Effect\": \"Deny\", \"Action\": \"s3:*\", \"Resource\": \"*\"\x7d]\x7d"

def denyAllDocument : Value :=
  .object [("Statement", .array [.object [
    ("Effect", .string "Deny"), ("Action", .string "s3:*"), ("Resource", .string "*")]])]

def sampleConfig : CredentialConfig where
  metaConfig := ⟨false, 8⟩
  initial := []
  parsePolicy text :=
    if text = denyAllText then (Policy.parse (fun _ => none) denyAllDocument).toOption else none
  openCipher cipher := if cipher = "c2VhbGVk" then some "secret" else none

def sampleSecret : SealedSecret sampleConfig :=
  ⟨"secret", "c2VhbGVk", rfl⟩

def sampleStep (call : CredentialCall sampleConfig) : CredentialStep sampleConfig :=
  ⟨call, .kept true, 0⟩

def sampleAddition : CredentialStep sampleConfig :=
  sampleStep (.addKeyOwned "AK" "default" "alice" none (some sampleSecret))

def sampleStart : Running :=
  ⟨restored sampleConfig Store.empty, .opened Store.empty⟩

def sampleRun (calls : List (CredentialStep sampleConfig)) : Running :=
  calls.foldl (Running.step sampleConfig) sampleStart

theorem credentials_decide_as_restored_new :
    AlwaysHolds (Running.step sampleConfig) (DecidesAsRestored sampleConfig)
      ⟨restored sampleConfig (MetaStore.opened Store.empty).rows, .opened Store.empty⟩
      [sampleAddition, sampleStep (.setKeyEnabled "AK" false false)] := by
  apply credentials_decide_as_restored
  refine everyStep_cons.mpr ⟨.inr ⟨nofun, ?_⟩, everyStep_cons.mpr ⟨.inr ⟨nofun, ?_⟩, everyStep_nil⟩⟩
  · intro _ _
    exact ⟨rfl, nofun⟩
  · exact ⟨fun _ => .inl rfl, nofun⟩

/-- The calls under which a key comes back with the policy it had before it was removed. -/
def recreation : List (CredentialStep sampleConfig) :=
  [sampleAddition, sampleStep (.setKeyPolicy "AK" (some denyAllText) none),
   sampleStep (.removeKey "AK"), sampleAddition]

def sampleSurroundings : Surroundings where
  now := 0
  parsePolicy := sampleConfig.parsePolicy
  deriveSecret secret _ := secret
  hashSecret secret := secret
  bucketPolicy _ := none
  bucketOwner _ := none

def samplePresented : Presented where
  token := none
  peeked := some "AK"
  header := some ⟨"AK", none, fun secret =>
    if secret = "secret" then none else some ⟨.signatureDoesNotMatch, ""⟩⟩
  query := none

def sampleTarget : Target :=
  ⟨"GetObject", "bucket", "key", {}⟩

/-- A key that is made again is denied what the policy of the removed key denied, until the service
restarts: the new record has no policy. -/
theorem recreated_key_inherits_policy :
    (sampleRun recreation).service.decideRequest sampleSurroundings (sampleRun recreation).store.rows
        samplePresented sampleTarget =
      .error ⟨.accessDenied, "access key AK is not authorized for GetObject on arn:aws:s3:::bucket/key"⟩ ∧
    (restored sampleConfig (sampleRun recreation).store.rows).decideRequest sampleSurroundings
        (sampleRun recreation).store.rows samplePresented sampleTarget = .ok (some ⟨"AK", none⟩) ∧
    ¬AlwaysHolds (Running.step sampleConfig) (DecidesAsRestored sampleConfig) sampleStart
      recreation := by
  have memory : (sampleRun recreation).service.decideRequest sampleSurroundings
      (sampleRun recreation).store.rows samplePresented sampleTarget = .error ⟨.accessDenied,
        "access key AK is not authorized for GetObject on arn:aws:s3:::bucket/key"⟩ := by
    decide +kernel
  have fresh : (restored sampleConfig (sampleRun recreation).store.rows).decideRequest sampleSurroundings
      (sampleRun recreation).store.rows samplePresented sampleTarget =
        .ok (some ⟨"AK", none⟩) := by
    decide +kernel
  refine ⟨memory, fresh, ?_⟩
  intro always
  have last := (always recreation [] (List.append_nil _).symm sampleSurroundings
    samplePresented).2 sampleTarget
  have same := (memory.symm.trans last).trans fresh
  cases same

end FastS3.S3
