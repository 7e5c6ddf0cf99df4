import FastS3.Meta.Apply

namespace FastS3.Meta

open FastS3.Core Data

/-! The rows an operation reads or writes. -/

/-- A deletion of an upload removes its index row, whatever bucket the session names. -/
def Op.touches (seq : Nat) (op : Op) (key : Key) : Prop :=
  match op with
  | .bucketPut name _ _ => key = .bucket name ∨ key = .location name
  | .bucketDelete name =>
    key = .bucket name ∨ key = .location name ∨ (∃ conf, key = .conf conf name) ∨
      key = .lifecycleRules name ∨ key = .notificationRules name ∨ key = .inventoryRules name
  | .bucketSetVersioning name _ | .bucketSetEncryption name _ | .bucketSetEncryptionKms name _ _
  | .bucketSetObjectLock name _ | .stats name _ => key = .bucket name
  | .bucketConfPut bucket conf _ | .bucketConfDelete bucket conf =>
    key = .bucket bucket ∨ key = .conf conf bucket
  | .lifecycleRulesReplace bucket _ | .lifecycleRulesDelete bucket =>
    key = .bucket bucket ∨ key = .lifecycleRules bucket
  | .notificationRulesReplace bucket _ | .notificationRulesDelete bucket =>
    key = .bucket bucket ∨ key = .notificationRules bucket
  | .inventoryRulePut bucket _ | .inventoryRuleDelete bucket _ =>
    key = .bucket bucket ∨ key = .inventoryRules bucket
  | .eventEnqueue _ | .eventMarkDead _ | .eventDelete _ => key = .events
  | .restoreJobPut _ => key = .restoreJob seq
  | .restoreJobDelete target => key = .restoreJob target
  | .sessionPut record => key = .stsSession record.sessionId
  | .sessionDelete sessionId => key = .stsSession sessionId
  | .ingestJobPut job => key = .ingestJob job.id
  | .ingestJobDelete id => key = .ingestJob id
  | .batchJobPut job => key = .batchJob job.id
  | .batchJobDelete id => key = .batchJob id
  | .objectSetTags bucket name vk _ | .objectSetRetention bucket name vk _
  | .objectSetLegalHold bucket name vk _ | .objectMigrate bucket name vk _ _
  | .objectMetaRewrite bucket name vk _ => key = .object bucket name vk
  | .objectPut bucket name _ => key = .bucket bucket ∨ key = .object bucket name none
  | .objectDelete bucket name => key = .object bucket name none
  | .objectDeleteCurrent bucket name vk _ => key = .bucket bucket ∨ key = .object bucket name vk
  | .objectDeleteVersion bucket name vk => key = .object bucket name (some vk)
  | .objectPutVersion bucket name vk _ => key = .bucket bucket ∨ key = .object bucket name (some vk)
  | .alloc _ => key = .alloc seq ∨ key = .txn seq
  | .multipartCreate uploadId session =>
    key = .bucket session.bucket ∨ key = .session uploadId ∨
      key = .sessionIndex session.bucket uploadId
  | .multipartUpdate uploadId _ _ _ _ => key = .session uploadId
  | .multipartDelete uploadId =>
    key = .session uploadId ∨ ∃ bucket, key = .sessionIndex bucket uploadId
  | .partPut uploadId partNo _ => key = .session uploadId ∨ key = .part uploadId partNo
  | .partDelete uploadId partNo | .partMigrate uploadId partNo _ _ => key = .part uploadId partNo
  | .keyPut _ _ | .keyDelete _ => key = .accessKeys
  | .tenantPut tenant => key = .tenant tenant.tenantId
  | .tenantDelete tenantId =>
    key = .tenant tenantId ∨ key = .iamUsers tenantId ∨ key = .iamGroups tenantId ∨
      key = .iamPolicies tenantId ∨ key = .iamRoles tenantId ∨ key = .accessKeys
  | .iamUserPut user => key = .iamUsers user.tenantId
  | .iamUserDelete tenantId _ => key = .iamUsers tenantId ∨ key = .accessKeys
  | .iamGroupPut group => key = .iamGroups group.tenantId ∨ key = .iamUsers group.tenantId
  | .iamGroupDelete tenantId _ => key = .iamGroups tenantId ∨ key = .iamUsers tenantId
  | .iamPolicyPut policy => ∃ tenant, policy.tenantId = some tenant ∧ key = .iamPolicies tenant
  | .iamPolicyDelete tenantId _ =>
    key = .iamPolicies tenantId ∨ key = .iamUsers tenantId ∨ key = .iamGroups tenantId
  | .iamRolePut role => key = .iamRoles role.tenantId
  | .iamRoleDelete tenantId _ => key = .iamRoles tenantId
  | .sseKekSeedPut _ => key = .sseKekSeed
  | .sseKekGenPut _ => key = .sseKekGen

section Within

variable {scope : Key → Prop}

variable {key : Key} {tenantId : String} (name : String)

theorem tget_within (inside : scope key) : Within scope (tget key) :=
  Within.read inside

theorem tinsert_within (value : Value key) (inside : scope key) :
    Within scope (tinsert key value) :=
  Within.write value inside

theorem tremove_within (inside : scope key) : Within scope (tremove key) :=
  Within.write (Value.absent key) inside

theorem liftExcept_within {α : Type} (outcome : Except Error α) :
    Within scope (liftExcept outcome) := by
  cases outcome with
  | ok value => exact Within.pure value
  | error e => exact Within.throw e

theorem refused_within {p : Prop} [Decidable p] {α : Type} {e : Error} {next : MetaTx α}
    (rest : Within scope next) : Within scope (if p then throw e else next) := by
  split
  · exact Within.throw e
  · exact rest

/-- A row is read and written back. -/
theorem modifyRow_within {change : Value key → Value key} (inside : scope key) :
    Within scope (do let found ← tget key; tinsert key (change found)) :=
  Within.bind (tget_within inside) fun _ => tinsert_within _ inside

theorem checked_within {α : Type} {check : Except Error Unit} {next : MetaTx α}
    (rest : Within scope next) : Within scope (do liftExcept check; next) :=
  Within.bind (liftExcept_within check) fun _ => rest

theorem requireBucket_within {name : String} (inside : scope (.bucket name)) :
    Within scope (requireBucket name) := by
  apply Within.bind (tget_within inside)
  intro found
  cases found with
  | none => exact Within.throw _
  | some found => exact Within.pure found

theorem modifyBucket_within {name : String} (change : BucketMeta → BucketMeta)
    (inside : scope (.bucket name)) : Within scope (modifyBucket name change) := by
  apply Within.bind (requireBucket_within inside)
  intro found
  exact tinsert_within _ inside

theorem modifyObject_within {bucket key : String} {vk : Option Vk}
    (change : ObjectMeta → ObjectMeta) (inside : scope (.object bucket key vk)) :
    Within scope (modifyObject bucket key vk change) := by
  apply Within.bind (tget_within inside)
  intro found
  cases found with
  | none => exact Within.throw _
  | some found => exact tinsert_within _ inside

theorem requireSession_within {uploadId : String} (inside : scope (.session uploadId)) :
    Within scope (requireSession uploadId) := by
  apply Within.bind (tget_within inside)
  intro found
  cases found with
  | none => exact Within.throw _
  | some found => exact Within.pure found

theorem objectMigrate_within (replay : Bool) {bucket key : String} {vk : Option Vk}
    (oldSegments newSegments : List Segment) (inside : scope (.object bucket key vk)) :
    Within scope (objectMigrate replay bucket key vk oldSegments newSegments) := by
  apply Within.bind (tget_within inside)
  intro found
  cases found with
  | none => exact Within.throw _
  | some found =>
    exact refused_within (refused_within (tinsert_within _ inside))

theorem partMigrate_within (replay : Bool) {uploadId : String} {partNo : Nat}
    (oldSegments newSegments : List Segment) (inside : scope (.part uploadId partNo)) :
    Within scope (partMigrate replay uploadId partNo oldSegments newSegments) := by
  apply Within.bind (tget_within inside)
  intro found
  cases found with
  | none => exact Within.throw _
  | some found =>
    exact refused_within (refused_within (tinsert_within _ inside))

theorem named_within {α : Type} {first second : Except Error Unit} {next : MetaTx α}
    (rest : Within scope next) :
    Within scope (do liftExcept first; liftExcept second; next) :=
  checked_within (checked_within rest)

theorem joinGroup_within (group : IamGroup) (member : String)
    (inside : scope (.iamUsers group.tenantId)) : Within scope (joinGroup group member) := by
  apply checked_within
  apply Within.bind (tget_within inside)
  intro users
  split
  · exact Within.throw _
  · split
    · exact Within.pure _
    · exact tinsert_within _ inside

theorem leaveGroup_within (tenantId name member : String) (inside : scope (.iamUsers tenantId)) :
    Within scope (leaveGroup tenantId name member) := by
  apply checked_within
  apply Within.bind (tget_within inside)
  intro users
  split
  · exact Within.pure _
  · exact tinsert_within _ inside

theorem iamGroupPut_within (group : IamGroup) (ofGroups : scope (.iamGroups group.tenantId))
    (ofUsers : scope (.iamUsers group.tenantId)) : Within scope (iamGroupPut group) := by
  apply named_within
  apply Within.bind (tget_within ofGroups)
  intro groups
  apply Within.bind (Within.forM fun member _ => joinGroup_within group member ofUsers)
  intro _
  apply Within.bind (Within.forM fun member _ => leaveGroup_within _ _ member ofUsers)
  intro _
  exact tinsert_within _ ofGroups

theorem iamGroupDelete_within (ofGroups : scope (.iamGroups tenantId))
    (ofUsers : scope (.iamUsers tenantId)) : Within scope (iamGroupDelete tenantId name) := by
  apply named_within
  apply Within.bind (tget_within ofGroups)
  intro groups
  split
  · exact Within.throw _
  · apply Within.bind (Within.forM fun member _ => leaveGroup_within _ _ member ofUsers)
    intro _
    exact tinsert_within _ ofGroups

theorem iamUserDelete_within (ofUsers : scope (.iamUsers tenantId)) (ofKeys : scope .accessKeys) :
    Within scope (iamUserDelete tenantId name) := by
  apply named_within
  apply Within.bind (tget_within ofUsers)
  intro users
  split
  · exact Within.throw _
  · split
    · exact Within.throw _
    · apply Within.bind (tget_within ofKeys)
      intro keys
      split
      · exact Within.throw _
      · exact tinsert_within _ ofUsers

theorem iamPolicyDelete_within (ofPolicies : scope (.iamPolicies tenantId))
    (ofUsers : scope (.iamUsers tenantId)) (ofGroups : scope (.iamGroups tenantId)) :
    Within scope (iamPolicyDelete tenantId name) := by
  apply named_within
  apply Within.bind (tget_within ofPolicies)
  intro policies
  split
  · exact Within.throw _
  · apply Within.bind (tget_within ofUsers)
    intro users
    apply Within.bind (tget_within ofGroups)
    intro groups
    split
    · exact Within.throw _
    · exact tinsert_within _ ofPolicies

theorem tenantDelete_within (ofTenant : scope (.tenant tenantId))
    (ofUsers : scope (.iamUsers tenantId)) (ofGroups : scope (.iamGroups tenantId))
    (ofPolicies : scope (.iamPolicies tenantId)) (ofRoles : scope (.iamRoles tenantId))
    (ofKeys : scope .accessKeys) : Within scope (tenantDelete tenantId) := by
  apply checked_within
  apply Within.bind (tget_within ofTenant)
  intro found
  cases found with
  | none => exact Within.throw _
  | some found =>
    apply Within.bind (tget_within ofUsers)
    intro users
    apply Within.bind (tget_within ofGroups)
    intro groups
    apply Within.bind (tget_within ofPolicies)
    intro policies
    apply Within.bind (tget_within ofRoles)
    intro roles
    split
    · apply Within.bind (tget_within ofKeys)
      intro keys
      split
      · exact Within.throw _
      · exact tremove_within ofTenant
    · exact Within.throw _

end Within

section Arms

variable (replay : Bool) (seq : Nat)

theorem inBucket_within {α : Type} {scope : Key → Prop} {name : String} {next : MetaTx α}
    (inside : scope (.bucket name)) (rest : Within scope next) :
    Within scope (do let _ ← requireBucket name; next) :=
  Within.bind (requireBucket_within inside) fun _ => rest

theorem bucketDelete_within (name : String) :
    Within ((Op.bucketDelete name).touches seq) (applyOp replay seq (.bucketDelete name)) := by
  apply inBucket_within (.inl rfl)
  apply Within.bind (tremove_within (.inl rfl))
  intro _
  apply Within.bind (tremove_within (.inr (.inl rfl)))
  intro _
  apply Within.bind (Within.forM fun conf _ => tremove_within (.inr (.inr (.inl ⟨conf, rfl⟩))))
  intro _
  apply Within.bind (tremove_within (.inr (.inr (.inr (.inl rfl)))))
  intro _
  apply Within.bind (tremove_within (.inr (.inr (.inr (.inr (.inl rfl))))))
  intro _
  exact tremove_within (.inr (.inr (.inr (.inr (.inr rfl)))))

theorem eventMarkDead_within (target : Nat) :
    Within ((Op.eventMarkDead target).touches seq) (applyOp replay seq (.eventMarkDead target)) := by
  refine Within.bind (tget_within (by rfl)) ?_
  intro events
  split
  · exact Within.throw _
  · exact tinsert_within _ rfl

theorem objectDelete_within (bucket key : String) :
    Within ((Op.objectDelete bucket key).touches seq) (applyOp replay seq (.objectDelete bucket key)) := by
  refine Within.bind (tget_within (by rfl)) ?_
  intro found
  cases found with
  | none => exact Within.throw _
  | some found => exact tremove_within rfl

theorem objectDeleteVersion_within (bucket key : String) (vk : Vk) :
    Within ((Op.objectDeleteVersion bucket key vk).touches seq)
      (applyOp replay seq (.objectDeleteVersion bucket key vk)) := by
  refine Within.bind (tget_within (by rfl)) ?_
  intro found
  cases found with
  | none => exact Within.throw _
  | some found => exact tremove_within rfl

theorem objectMetaRewrite_within (bucket key : String) (vk : Option Vk) (value : ObjectMeta) :
    Within ((Op.objectMetaRewrite bucket key vk value).touches seq)
      (applyOp replay seq (.objectMetaRewrite bucket key vk value)) := by
  refine Within.bind (tget_within (by rfl)) ?_
  intro found
  cases found with
  | none => exact Within.throw _
  | some found => exact tinsert_within _ rfl

theorem alloc_within (draft : AllocDraft) :
    Within ((Op.alloc draft).touches seq) (applyOp replay seq (.alloc draft)) := by
  dsimp only [applyOp]
  split
  · exact Within.pure _
  · apply Within.bind (tinsert_within _ (.inl rfl))
    intro _
    exact tinsert_within _ (.inr rfl)

theorem multipartCreate_within (uploadId : String) (session : MultipartSession) :
    Within ((Op.multipartCreate uploadId session).touches seq)
      (applyOp replay seq (.multipartCreate uploadId session)) := by
  apply inBucket_within (.inl rfl)
  apply Within.bind (tinsert_within _ (.inr (.inl rfl)))
  intro _
  exact tinsert_within _ (.inr (.inr rfl))

theorem multipartDelete_within (uploadId : String) :
    Within ((Op.multipartDelete uploadId).touches seq)
      (applyOp replay seq (.multipartDelete uploadId)) := by
  apply Within.bind (requireSession_within (.inl rfl))
  intro session
  apply Within.bind (tremove_within (.inl rfl))
  intro _
  exact tremove_within (.inr ⟨session.bucket, rfl⟩)

theorem iamPolicyPut_within (policy : IamPolicy) :
    Within ((Op.iamPolicyPut policy).touches seq) (applyOp replay seq (.iamPolicyPut policy)) := by
  dsimp only [applyOp]
  split
  · exact Within.throw _
  · next tenant named => exact named_within (modifyRow_within ⟨tenant, named, rfl⟩)

end Arms

theorem applyOp_within (replay : Bool) (seq : Nat) (op : Op) :
    Within (op.touches seq) (applyOp replay seq op) := by
  cases op with
  | bucketPut name value location =>
    exact Within.bind (tinsert_within _ (.inl rfl)) fun _ => tinsert_within _ (.inr rfl)
  | bucketDelete name => exact bucketDelete_within replay seq name
  | objectPut bucket key value => exact inBucket_within (.inl rfl) (tinsert_within _ (.inr rfl))
  | objectMigrate bucket key vk oldSegments newSegments =>
    exact objectMigrate_within replay oldSegments newSegments rfl
  | partMigrate uploadId partNo oldSegments newSegments =>
    exact partMigrate_within replay oldSegments newSegments rfl
  | bucketSetVersioning name state => exact modifyBucket_within _ rfl
  | bucketSetEncryption name default => exact modifyBucket_within _ rfl
  | bucketSetEncryptionKms name default kmsKey => exact modifyBucket_within _ rfl
  | bucketSetObjectLock name defaultRetention => exact modifyBucket_within _ rfl
  | bucketConfPut bucket conf value => exact inBucket_within (.inl rfl) (tinsert_within _ (.inr rfl))
  | bucketConfDelete bucket conf => exact inBucket_within (.inl rfl) (tremove_within (.inr rfl))
  | lifecycleRulesReplace bucket rules =>
    exact inBucket_within (.inl rfl) (tinsert_within _ (.inr rfl))
  | lifecycleRulesDelete bucket => exact inBucket_within (.inl rfl) (tremove_within (.inr rfl))
  | notificationRulesReplace bucket rules =>
    exact inBucket_within (.inl rfl) (tinsert_within _ (.inr rfl))
  | notificationRulesDelete bucket => exact inBucket_within (.inl rfl) (tremove_within (.inr rfl))
  | eventEnqueue record => exact modifyRow_within (by rfl)
  | eventMarkDead target => exact eventMarkDead_within replay seq target
  | eventDelete target => exact modifyRow_within (by rfl)
  | restoreJobPut job => exact tinsert_within _ rfl
  | restoreJobDelete target => exact tremove_within rfl
  | sessionPut record => exact tinsert_within _ rfl
  | sessionDelete sessionId => exact tremove_within rfl
  | inventoryRulePut bucket rule => exact inBucket_within (.inl rfl) (modifyRow_within (.inr rfl))
  | inventoryRuleDelete bucket id => exact inBucket_within (.inl rfl) (modifyRow_within (.inr rfl))
  | ingestJobPut job => exact checked_within (tinsert_within _ rfl)
  | ingestJobDelete id => exact checked_within (tremove_within rfl)
  | batchJobPut job => exact checked_within (tinsert_within _ rfl)
  | batchJobDelete id => exact checked_within (tremove_within rfl)
  | objectSetTags bucket key vk tags => exact modifyObject_within _ rfl
  | objectSetRetention bucket key vk retention => exact modifyObject_within _ rfl
  | objectSetLegalHold bucket key vk legalHold => exact modifyObject_within _ rfl
  | objectDelete bucket key => exact objectDelete_within replay seq bucket key
  | objectDeleteCurrent bucket key vk marker =>
    exact inBucket_within (.inl rfl) (refused_within (tinsert_within _ (.inr rfl)))
  | objectDeleteVersion bucket key vk => exact objectDeleteVersion_within replay seq bucket key vk
  | objectPutVersion bucket key vk value =>
    exact inBucket_within (.inl rfl) (refused_within (tinsert_within _ (.inr rfl)))
  | objectMetaRewrite bucket key vk value => exact objectMetaRewrite_within replay seq bucket key vk value
  | alloc draft => exact alloc_within replay seq draft
  | stats bucket delta => exact modifyBucket_within _ rfl
  | multipartCreate uploadId session => exact multipartCreate_within replay seq uploadId session
  | multipartUpdate uploadId completed finalEtag finalSize finalMtime =>
    refine Within.bind (requireSession_within (by rfl)) ?_
    intro session
    exact tinsert_within _ rfl
  | multipartDelete uploadId => exact multipartDelete_within replay seq uploadId
  | partPut uploadId partNo value =>
    exact Within.bind (requireSession_within (.inl rfl)) fun _ => tinsert_within _ (.inr rfl)
  | partDelete uploadId partNo => exact tremove_within rfl
  | keyPut accessKey record => exact modifyRow_within (by rfl)
  | keyDelete accessKey =>
    exact Within.bind (tget_within (by rfl)) fun _ => refused_within (tinsert_within _ rfl)
  | tenantPut tenant => exact checked_within (tinsert_within _ rfl)
  | iamUserPut user => exact named_within (modifyRow_within (by rfl))
  | iamUserDelete tenantId name => exact iamUserDelete_within name (.inl rfl) (.inr rfl)
  | iamGroupPut group => exact iamGroupPut_within group (.inl rfl) (.inr rfl)
  | iamGroupDelete tenantId name => exact iamGroupDelete_within name (.inl rfl) (.inr rfl)
  | iamPolicyPut policy => exact iamPolicyPut_within replay seq policy
  | iamPolicyDelete tenantId name =>
    exact iamPolicyDelete_within name (.inl rfl) (.inr (.inl rfl)) (.inr (.inr rfl))
  | iamRolePut role => exact named_within (modifyRow_within (by rfl))
  | iamRoleDelete tenantId name =>
    apply named_within
    exact Within.bind (tget_within (by rfl)) fun _ => refused_within (tinsert_within _ rfl)
  | tenantDelete tenantId =>
    exact tenantDelete_within (.inl rfl) (.inr (.inl rfl)) (.inr (.inr (.inl rfl)))
      (.inr (.inr (.inr (.inl rfl)))) (.inr (.inr (.inr (.inr (.inl rfl)))))
      (.inr (.inr (.inr (.inr (.inr rfl)))))
  | sseKekSeedPut seed => exact refused_within (tinsert_within _ rfl)
  | sseKekGenPut state => exact tinsert_within _ rfl

end FastS3.Meta
