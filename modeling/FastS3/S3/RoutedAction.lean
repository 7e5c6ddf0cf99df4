import FastS3.S3.RequestTarget

namespace FastS3.S3

open Data
open FastS3.Core (Bytes)

/-! When a request is authorized as the operation that it runs. -/

def KeyPattern.admitsAt (onBucket : Bool) : KeyPattern → Bool
  | empty => onBucket
  | given => !onBucket
  | any => true

theorem KeyPattern.admits_eq (key : String) (pattern : KeyPattern) :
    pattern.admits key = pattern.admitsAt (decide (key = "")) := by
  cases pattern with
  | empty => rfl
  | given => simp [admits, admitsAt]
  | any => rfl

def actionOf (onBucket : Bool) (name : String) : String :=
  if name = "GetObject" && onBucket then "ListBucket"
  else if name = "HeadBucket" then "ListBucket"
  else if name = "ListBuckets" then "ListAllMyBuckets"
  else if name = "PostObject" then "PutObject"
  else name

theorem s3ActionName_eq {bucket : String} (given : bucket ≠ "") (name key : String) :
    s3ActionName name bucket key = actionOf (decide (key = "")) name := by
  simp only [s3ActionName, actionOf, given, ne_eq, not_false_eq_true, and_true, Bool.and_eq_true,
    decide_eq_true_eq]

def armsAt (method : Method) (onBucket : Bool) : List (ArmGuard × String) :=
  (requestArms.filter fun arm => decide (arm.1.method = method) && arm.1.key.admitsAt onBucket).map
    fun arm => (arm.1.guard, actionOf onBucket arm.2.2)

def actionAt (query : List (String × String)) (method : Method) (onBucket : Bool) : String :=
  firstMatch (ArmGuard.holds query) (armsAt method onBucket) "Other"

theorem requestName_action {bucket : String} (method : Method) (key : String)
    (query : List (String × String)) (given : bucket ≠ "") :
    s3ActionName (requestName method bucket key query).2 bucket key =
      actionAt query method (decide (key = "")) := by
  have named : ¬(method = .get ∧ bucket = "") := fun both => given both.2
  have parted : ∀ arm : RequestArm, arm.holds method key query =
      ((decide (arm.method = method) && arm.key.admitsAt (decide (key = ""))) &&
        arm.guard.holds query) := by
    intro arm
    rw [RequestArm.holds, arm.key.admits_eq key]
  rw [requestName, if_neg named, s3ActionName_eq given]
  exact firstMatch_select (fun result : MetricsOp × String => actionOf (decide (key = "")) result.2)
    parted

/-! The arms of each method. -/

section Arms

theorem armsAt_bucket_get : armsAt .get true =
    [(.named "tagging", "GetBucketTagging"), (.named "cors", "GetBucketCors"),
     (.named "ownershipControls", "GetBucketOwnershipControls"),
     (.named "publicAccessBlock", "GetPublicAccessBlock"),
     (.named "policyStatus", "GetBucketPolicyStatus"), (.named "policy", "GetBucketPolicy"),
     (.named "lifecycle", "GetLifecycleConfiguration"),
     (.named "notification", "GetBucketNotificationConfiguration"),
     (.named "inventory", "GetInventoryConfiguration"),
     (.named "object-lock", "GetObjectLockConfiguration"),
     (.named "versioning", "GetBucketVersioning"), (.named "versions", "ListObjectVersions"),
     (.named "tagging", "GetObjectTagging"), (.always, "ListBucket")] := by
  decide

theorem armsAt_bucket_put : armsAt .put true =
    [(.named "tagging", "PutBucketTagging"), (.named "cors", "PutBucketCors"),
     (.named "ownershipControls", "PutBucketOwnershipControls"),
     (.named "publicAccessBlock", "PutPublicAccessBlock"), (.named "policy", "PutBucketPolicy"),
     (.named "lifecycle", "PutLifecycleConfiguration"),
     (.named "notification", "PutBucketNotificationConfiguration"),
     (.named "inventory", "PutInventoryConfiguration"),
     (.named "object-lock", "PutObjectLockConfiguration"),
     (.named "versioning", "PutBucketVersioning"), (.named "tagging", "PutObjectTagging"),
     (.always, "CreateBucket"), (.always, "PutObject")] := by
  decide

theorem armsAt_bucket_delete : armsAt .delete true =
    [(.named "tagging", "DeleteBucketTagging"), (.named "cors", "DeleteBucketCors"),
     (.named "ownershipControls", "DeleteBucketOwnershipControls"),
     (.named "publicAccessBlock", "DeletePublicAccessBlock"),
     (.named "policy", "DeleteBucketPolicy"),
     (.named "lifecycle", "DeleteLifecycleConfiguration"),
     (.named "notification", "DeleteBucketNotificationConfiguration"),
     (.named "inventory", "DeleteInventoryConfiguration"),
     (.named "tagging", "DeleteObjectTagging"), (.always, "DeleteBucket"),
     (.always, "DeleteObject")] := by
  decide

theorem armsAt_bucket_head : armsAt .head true =
    [(.always, "ListBucket"), (.always, "HeadObject")] := by
  decide

theorem armsAt_bucket_post : armsAt .post true =
    [(.unnamed "delete", "PutObject"), (.always, "Multipart")] := by
  decide

theorem armsAt_object_get : armsAt .get false =
    [(.named "tagging", "GetObjectTagging"), (.named "retention", "GetObjectRetention"),
     (.named "legal-hold", "GetObjectLegalHold"), (.named "attributes", "GetObjectAttributes"),
     (.always, "GetObject")] := by
  decide

theorem armsAt_object_put : armsAt .put false =
    [(.named "tagging", "PutObjectTagging"), (.named "retention", "PutObjectRetention"),
     (.named "legal-hold", "PutObjectLegalHold"), (.always, "PutObject")] := by
  decide

theorem armsAt_object_delete : armsAt .delete false =
    [(.named "tagging", "DeleteObjectTagging"), (.always, "DeleteObject")] := by
  decide

theorem armsAt_object_head : armsAt .head false = [(.always, "HeadObject")] := by
  decide

theorem armsAt_object_post : armsAt .post false =
    [(.named "restore", "RestoreObject"), (.always, "Multipart")] := by
  decide

theorem armsAt_other (name : String) (onBucket : Bool) : armsAt (.other name) onBucket = [] := by
  cases onBucket <;> rfl

end Arms

theorem actionAt_ne {query : List (String × String)} {method : Method} {onBucket : Bool}
    {action : String}
    (unaudited : action ∉ "Other" :: requestArms.map fun arm => actionOf onBucket arm.2.2) :
    actionAt query method onBucket ≠ action := by
  refine firstMatch_ne fun inside => unaudited ?_
  cases List.mem_cons.mp inside with
  | inl other => rw [other]; exact List.mem_cons_self
  | inr arm =>
    obtain ⟨arm, member, rfl⟩ := List.mem_map.mp arm
    obtain ⟨source, among, rfl⟩ := List.mem_map.mp member
    exact List.mem_cons_of_mem _ (List.mem_map.mpr ⟨source, (List.mem_filter.mp among).1, rfl⟩)

def Unnamed (query : List (String × String)) (subresources : List String) : Prop :=
  ∀ name ∈ subresources, hasQ query name = false

instance (query : List (String × String)) (subresources : List String) :
    Decidable (Unnamed query subresources) :=
  inferInstanceAs (Decidable (∀ name ∈ subresources, hasQ query name = false))

section Unnamed

variable {query : List (String × String)}

theorem Unnamed.of_subset {names others : List String} (absent : Unnamed query names)
    (within : others ⊆ names) : Unnamed query others :=
  fun name inside => absent name (within inside)

theorem Unnamed.nil : Unnamed query [] := by
  intro name inside
  cases inside

theorem Unnamed.cons {name : String} {names : List String} (absent : hasQ query name = false)
    (rest : Unnamed query names) : Unnamed query (name :: names) :=
  List.forall_mem_cons.mpr ⟨absent, rest⟩

theorem Unnamed.append {names others : List String} (absent : Unnamed query names)
    (rest : Unnamed query others) : Unnamed query (names ++ others) :=
  List.forall_mem_append.mpr ⟨absent, rest⟩

def ArmGuard.subresource : ArmGuard → Option String
  | named subresource => some subresource
  | _ => none

def namedBefore (arms : List (ArmGuard × String)) (place : Nat) : List String :=
  (arms.take place).filterMap fun arm => arm.1.subresource

theorem unnamed_filterMap {arms : List (ArmGuard × String)}
    (named : ∀ arm ∈ arms, arm.1.subresource.isSome = true) :
    (∀ arm ∈ arms, arm.1.holds query = false) ↔
      Unnamed query (arms.filterMap fun arm => arm.1.subresource) := by
  constructor
  · intro silent name inside
    obtain ⟨⟨guard, action⟩, member, found⟩ := List.mem_filterMap.mp inside
    cases guard with
    | named subresource => cases found; exact silent _ member
    | unnamed subresource => cases found
    | always => cases found
  · intro absent arm member
    obtain ⟨guard, action⟩ := arm
    cases guard with
    | named subresource => exact absent _ (List.mem_filterMap.mpr ⟨_, member, rfl⟩)
    | unnamed subresource => cases named _ member
    | always => cases named _ member

theorem actionAt_iff {method : Method} {onBucket : Bool} {arms : List (ArmGuard × String)}
    {guard : ArmGuard} {action : String} (listed : armsAt method onBucket = arms) (place : Nat)
    (arm : arms[place]? = some (guard, action)) (held : guard.holds query = true)
    (named : ∀ arm ∈ arms.take place, arm.1.subresource.isSome = true)
    (fresh : action ∉ (arms.take place).map Prod.snd) :
    actionAt query method onBucket = action ↔ Unnamed query (namedBefore arms place) := by
  obtain ⟨inside, found⟩ := List.getElem?_eq_some_iff.mp arm
  have split : arms = arms.take place ++ (guard, action) :: arms.drop (place + 1) := by
    rw [← found, ← List.drop_eq_getElem_cons inside, List.take_append_drop]
  rw [actionAt, listed]
  conv_lhs => rw [split]
  rw [firstMatch_at_iff _ _ held fresh, unnamed_filterMap named, namedBefore]

end Unnamed

section Clear

variable (query : List (String × String)) (method : Method)

def earlySubresources : Method → List String
  | .get => ["tagging", "cors", "ownershipControls", "publicAccessBlock", "policyStatus", "policy",
      "lifecycle", "notification", "inventory", "object-lock"]
  | _ => ["tagging", "cors", "ownershipControls", "publicAccessBlock", "policy", "lifecycle",
      "notification", "inventory", "object-lock"]

/-- From the encryption on, the encryption is never told from the bucket itself, a list of inventories
never from one of them, and an object lock only without a later sub-resource. -/
def RulesClear : Prop :=
  if hasQ query "encryption" then False
  else if hasQ query "object-lock" then Unnamed query ["lifecycle", "notification", "inventory"]
  else if hasQ query "lifecycle" || hasQ query "notification" then True
  else hasQ query "inventory" = true → (getQ query "id").isSome = true

def ConfigClear : Prop :=
  if ["tagging", "cors", "ownershipControls", "publicAccessBlock", "policyStatus", "policy"].any
    (hasQ query) then True
  else RulesClear query

/-- The location is never told from a listing, and versions and listings only without a sub-resource
that the second reading looks for first. -/
def BucketClear : Prop :=
  if hasQ query "location" then False
  else if hasQ query "versioning" || hasQ query "versions" then
    Unnamed query (earlySubresources method)
  else if hasQ query "list-type" ∧ getQ query "list-type" = some "2" then
    method = .head ∨ method = .get ∧ Unnamed query (earlySubresources .get)
  else if hasQ query "delete" then True
  else if hasQ query "uploads" ∧ method = .get then Unnamed query (earlySubresources .get)
  else ConfigClear query

/-- An upload is told from an object when it is posted to or a part is put, without a sub-resource of
the object; its other operations never are, and neither are access control lists. -/
def ObjectClear : Prop :=
  if (getQ query "uploadId").isSome then
    if (getQ query "partNumber").isSome then Unnamed query ["tagging", "retention", "legal-hold"]
    else method = .post ∧ Unnamed query ["restore"]
  else if hasQ query "uploads" then Unnamed query ["restore"]
  else if (getQ query "partNumber").isSome then
    method = .head ∨ Unnamed query ["tagging", "retention", "legal-hold", "attributes"]
  else method = .get → hasQ query "acl" = false

end Clear

/-- The method of an operation and whether it is on a bucket, where that is asked for.  A copy is no
operation of the router. -/
def Operation.fits (method : Method) (onBucket : Bool) : Operation → Bool
  | copyObject _ _ _ _ _ _ _ _ | uploadPartCopy _ _ _ _ _ _ => false
  | getObject _ _ _ | getObjectPart _ _ _ | listParts _ _ _ _ _ => method = .get && !onBucket
  | putObject _ _ | uploadPart _ _ _ _ => method = .put && !onBucket
  | deleteObject _ _ _ | abortMultipartUpload _ _ _ => method = .delete && !onBucket
  | completeMultipartUpload _ _ _ _ | createMultipartUpload _ _ => method = .post && !onBucket
  | deleteObjects _ _ _ | postObject _ => method = .post && onBucket
  | _ => true

/-- An operation with its method, bucket and key, and when an action is its own. -/
structure Told (op : Operation) (method : Method) (onBucket : Bool) (bucket key action : String)
    (clear : Prop) : Prop where
  fits : op.fits method onBucket = true
  bucket : op.bucket = bucket
  key : op.key = key
  action : action = op.action ↔ clear

section Told

variable {op : Operation} {bucket key action : String} {clear : Prop}
  {query : List (String × String)} {method : Method} {onBucket : Bool}

theorem Told.congr {other : Prop} (told : Told op method onBucket bucket key action clear)
    (same : clear ↔ other) : Told op method onBucket bucket key action other :=
  ⟨told.fits, told.bucket, told.key, told.action.trans same⟩

theorem Told.always (told : Told op method onBucket bucket key action clear) (holds : clear) :
    Told op method onBucket bucket key action True :=
  told.congr (iff_true_intro holds)

theorem Told.never {unclear : Prop} (own : String) (same : op.action = own)
    (fits : op.fits method onBucket = true)
    (unaudited : own ∉ "Other" :: requestArms.map fun arm => actionOf onBucket arm.2.2)
    (absurd : ¬unclear) :
    Told op method onBucket op.bucket op.key (actionAt query method onBucket) unclear :=
  ⟨fits, rfl, rfl, iff_of_false (same ▸ actionAt_ne unaudited) absurd⟩

theorem Told.at {arms : List (ArmGuard × String)} {guard : ArmGuard} {own : String}
    (listed : armsAt method onBucket = arms) (place : Nat) (arm : arms[place]? = some (guard, own))
    (same : op.action = own) (fits : op.fits method onBucket = true) (held : guard.holds query = true)
    (before : (∀ arm ∈ arms.take place, arm.1.subresource.isSome = true) ∧
      own ∉ (arms.take place).map Prod.snd) :
    Told op method onBucket op.bucket op.key (actionAt query method onBucket)
      (Unnamed query (namedBefore arms place)) :=
  ⟨fits, rfl, rfl, same ▸ actionAt_iff listed place arm held before.1 before.2⟩

end Told

theorem map_ok {ε α β : Type} {result : Except ε α} {build : α → β} {built : β}
    (succeeded : result.map build = .ok built) : ∃ value, result = .ok value ∧ build value = built := by
  cases result with
  | error e => cases succeeded
  | ok value => cases succeeded; exact ⟨value, rfl, rfl⟩

section Bucket

variable {xml : Xml} {method : Method} {query : List (String × String)} {body : Bytes}
  {bucket : String} {op : Operation}

theorem configuration_told {put get delete : Except S3Error Operation} {clear : Prop}
    (routed : configuration method put get delete = .ok op)
    (onPut : put = .ok op → Told op .put true bucket "" (actionAt query .put true) clear)
    (onGet : get = .ok op → Told op .get true bucket "" (actionAt query .get true) clear)
    (onDelete : delete = .ok op → Told op .delete true bucket "" (actionAt query .delete true) clear) :
    Told op method true bucket "" (actionAt query method true) clear := by
  cases method with
  | put => exact onPut routed
  | get => exact onGet routed
  | delete => exact onDelete routed
  | post => cases routed
  | head => cases routed
  | other name => cases routed

theorem routePlainBucket_told
    (quiet : Unnamed query ("delete" :: "versioning" :: "versions" :: earlySubresources .get))
    (routed : routePlainBucket xml method query body bucket = .ok op) :
    Told op method true bucket "" (actionAt query method true) True := by
  unfold routePlainBucket at routed
  split at routed
  · cases routed
  · cases named : unsupportedSubresources.find? (hasQ query) with
    | some name => rw [named] at routed; cases routed
    | none =>
      rw [named] at routed
      cases method with
      | put =>
        obtain ⟨location, -, rfl⟩ := map_ok routed
        exact (Told.at armsAt_bucket_put 11 rfl rfl rfl rfl (by decide)).always
          (quiet.of_subset (by decide))
      | delete =>
        cases routed
        exact (Told.at armsAt_bucket_delete 9 rfl rfl rfl rfl (by decide)).always
          (quiet.of_subset (by decide))
      | head =>
        cases routed
        exact (Told.at armsAt_bucket_head 0 rfl rfl rfl rfl (by decide)).always Unnamed.nil
      | post =>
        cases routed
        have silent : (ArmGuard.unnamed "delete").holds query = true := by
          rw [ArmGuard.holds, quiet "delete" (by decide), Bool.not_false]
        exact (Told.at armsAt_bucket_post 0 rfl rfl rfl silent (by decide)).always Unnamed.nil
      | get =>
        obtain ⟨maxKeys, -, rfl⟩ := map_ok routed
        exact (Told.at armsAt_bucket_get 13 rfl rfl rfl rfl (by decide)).always
          (quiet.of_subset (by decide))
      | other name => cases routed

theorem routeInventory_told (inventory : hasQ query "inventory" = true)
    (quiet : Unnamed query ["tagging", "cors", "ownershipControls", "publicAccessBlock", "policyStatus",
      "policy", "lifecycle", "notification"])
    (routed : routeInventory xml method query body bucket = .ok op) :
    Told op method true bucket "" (actionAt query method true) ((getQ query "id").isSome = true) := by
  unfold routeInventory at routed
  cases named : getQ query "id" with
  | none =>
    rw [named] at routed
    cases method with
    | get =>
      cases routed
      exact Told.never "ListInventoryConfigurations" rfl rfl (by decide) Bool.false_ne_true
    | put => cases routed
    | delete => cases routed
    | post => cases routed
    | head => cases routed
    | other name => cases routed
  | some id =>
    rw [named] at routed
    have told : Told op method true bucket "" (actionAt query method true) True := by
      cases method with
      | put =>
        obtain ⟨rule, -, rfl⟩ := map_ok routed
        exact (Told.at armsAt_bucket_put 7 rfl rfl rfl inventory (by decide)).always
          (quiet.of_subset (by decide))
      | get =>
        cases routed
        exact (Told.at armsAt_bucket_get 8 rfl rfl rfl inventory (by decide)).always
          (quiet.of_subset (by decide))
      | delete =>
        cases routed
        exact (Told.at armsAt_bucket_delete 7 rfl rfl rfl inventory (by decide)).always
          (quiet.of_subset (by decide))
      | post => cases routed
      | head => cases routed
      | other name => cases routed
    exact told.congr (iff_of_true trivial rfl)

theorem routeBucketRules_told
    (quiet : Unnamed query ["delete", "versioning", "versions", "tagging", "cors", "ownershipControls",
      "publicAccessBlock", "policyStatus", "policy"])
    (routed : routeBucketRules xml method query body bucket = .ok op) :
    Told op method true bucket "" (actionAt query method true) (RulesClear query) := by
  rw [routeBucketRules] at routed
  rw [RulesClear]
  by_cases encryption : hasQ query "encryption" = true
  · rw [if_pos encryption] at routed ⊢
    refine configuration_told routed (fun put => ?_) (fun get => ?_) (fun delete => ?_)
    · obtain ⟨config, -, rfl⟩ := map_ok put
      exact Told.never "PutBucketEncryption" rfl rfl (by decide) not_false
    · cases get
      exact Told.never "GetBucketEncryption" rfl rfl (by decide) not_false
    · cases delete
      exact Told.never "DeleteBucketEncryption" rfl rfl (by decide) not_false
  rw [if_neg encryption] at routed ⊢
  by_cases objectLock : hasQ query "object-lock" = true
  · rw [if_pos objectLock] at routed ⊢
    refine configuration_told routed (fun put => ?_) (fun get => ?_) (fun delete => ?_)
    · obtain ⟨retention, -, rfl⟩ := map_ok put
      refine (Told.at armsAt_bucket_put 8 rfl rfl rfl objectLock (by decide)).congr ⟨?_, ?_⟩
      · exact fun clear => clear.of_subset (by decide)
      · exact fun clear => (quiet.append clear).of_subset (by decide)
    · cases get
      refine (Told.at armsAt_bucket_get 9 rfl rfl rfl objectLock (by decide)).congr ⟨?_, ?_⟩
      · exact fun clear => clear.of_subset (by decide)
      · exact fun clear => (quiet.append clear).of_subset (by decide)
    · cases delete
  rw [if_neg objectLock] at routed ⊢
  have quiet := quiet.append (Unnamed.nil.cons (Bool.eq_false_of_not_eq_true objectLock))
  by_cases lifecycle : hasQ query "lifecycle" = true
  · rw [if_pos lifecycle] at routed
    rw [lifecycle, Bool.true_or, if_pos rfl]
    refine configuration_told routed (fun put => ?_) (fun get => ?_) (fun delete => ?_)
    · obtain ⟨rules, -, rfl⟩ := map_ok put
      exact (Told.at armsAt_bucket_put 5 rfl rfl rfl lifecycle (by decide)).always
        (quiet.of_subset (by decide))
    · cases get
      exact (Told.at armsAt_bucket_get 6 rfl rfl rfl lifecycle (by decide)).always
        (quiet.of_subset (by decide))
    · cases delete
      exact (Told.at armsAt_bucket_delete 5 rfl rfl rfl lifecycle (by decide)).always
        (quiet.of_subset (by decide))
  rw [if_neg lifecycle] at routed
  rw [Bool.eq_false_of_not_eq_true lifecycle, Bool.false_or]
  have quiet := quiet.cons (Bool.eq_false_of_not_eq_true lifecycle)
  by_cases notification : hasQ query "notification" = true
  · rw [if_pos notification] at routed ⊢
    refine configuration_told routed (fun put => ?_) (fun get => ?_) (fun delete => ?_)
    · obtain ⟨rules, -, rfl⟩ := map_ok put
      exact (Told.at armsAt_bucket_put 6 rfl rfl rfl notification (by decide)).always
        (quiet.of_subset (by decide))
    · cases get
      exact (Told.at armsAt_bucket_get 7 rfl rfl rfl notification (by decide)).always
        (quiet.of_subset (by decide))
    · cases delete
      exact (Told.at armsAt_bucket_delete 6 rfl rfl rfl notification (by decide)).always
        (quiet.of_subset (by decide))
  rw [if_neg notification] at routed ⊢
  have quiet := quiet.cons (Bool.eq_false_of_not_eq_true notification)
  by_cases inventory : hasQ query "inventory" = true
  · rw [if_pos inventory] at routed
    refine (routeInventory_told inventory (quiet.of_subset (by decide)) routed).congr ⟨?_, ?_⟩
    · exact fun named _ => named
    · exact fun named => named inventory
  · rw [if_neg inventory] at routed
    have quiet := quiet.cons (Bool.eq_false_of_not_eq_true inventory)
    refine (routePlainBucket_told (quiet.of_subset (by decide)) routed).congr
      (iff_of_true trivial fun named => absurd named inventory)

theorem routeBucketConfig_told (quiet : Unnamed query ["delete", "versioning", "versions"])
    (routed : routeBucketConfig xml method query body bucket = .ok op) :
    Told op method true bucket "" (actionAt query method true) (ConfigClear query) := by
  rw [routeBucketConfig] at routed
  rw [ConfigClear]
  simp only [List.any_cons, List.any_nil, Bool.or_false]
  by_cases tagging : hasQ query "tagging" = true
  · rw [if_pos tagging] at routed
    rw [tagging, Bool.true_or, if_pos rfl]
    refine configuration_told routed (fun put => ?_) (fun get => ?_) (fun delete => ?_)
    · obtain ⟨tags, -, rfl⟩ := map_ok put
      exact (Told.at armsAt_bucket_put 0 rfl rfl rfl tagging (by decide)).always Unnamed.nil
    · cases get
      exact (Told.at armsAt_bucket_get 0 rfl rfl rfl tagging (by decide)).always Unnamed.nil
    · cases delete
      exact (Told.at armsAt_bucket_delete 0 rfl rfl rfl tagging (by decide)).always Unnamed.nil
  rw [if_neg tagging] at routed
  rw [Bool.eq_false_of_not_eq_true tagging, Bool.false_or]
  have quiet := quiet.cons (Bool.eq_false_of_not_eq_true tagging)
  by_cases cors : hasQ query "cors" = true
  · rw [if_pos cors] at routed
    rw [cors, Bool.true_or, if_pos rfl]
    refine configuration_told routed (fun put => ?_) (fun get => ?_) (fun delete => ?_)
    · obtain ⟨rules, -, rfl⟩ := map_ok put
      exact (Told.at armsAt_bucket_put 1 rfl rfl rfl cors (by decide)).always
        (quiet.of_subset (by decide))
    · cases get
      exact (Told.at armsAt_bucket_get 1 rfl rfl rfl cors (by decide)).always
        (quiet.of_subset (by decide))
    · cases delete
      exact (Told.at armsAt_bucket_delete 1 rfl rfl rfl cors (by decide)).always
        (quiet.of_subset (by decide))
  rw [if_neg cors] at routed
  rw [Bool.eq_false_of_not_eq_true cors, Bool.false_or]
  have quiet := quiet.cons (Bool.eq_false_of_not_eq_true cors)
  by_cases ownership : hasQ query "ownershipControls" = true
  · rw [if_pos ownership] at routed
    rw [ownership, Bool.true_or, if_pos rfl]
    refine configuration_told routed (fun put => ?_) (fun get => ?_) (fun delete => ?_)
    · obtain ⟨ownership, -, rfl⟩ := map_ok put
      exact (Told.at armsAt_bucket_put 2 rfl rfl rfl (by assumption) (by decide)).always
        (quiet.of_subset (by decide))
    · cases get
      exact (Told.at armsAt_bucket_get 2 rfl rfl rfl ownership (by decide)).always
        (quiet.of_subset (by decide))
    · cases delete
      exact (Told.at armsAt_bucket_delete 2 rfl rfl rfl ownership (by decide)).always
        (quiet.of_subset (by decide))
  rw [if_neg ownership] at routed
  rw [Bool.eq_false_of_not_eq_true ownership, Bool.false_or]
  have quiet := quiet.cons (Bool.eq_false_of_not_eq_true ownership)
  by_cases publicAccess : hasQ query "publicAccessBlock" = true
  · rw [if_pos publicAccess] at routed
    rw [publicAccess, Bool.true_or, if_pos rfl]
    refine configuration_told routed (fun put => ?_) (fun get => ?_) (fun delete => ?_)
    · obtain ⟨block, -, rfl⟩ := map_ok put
      exact (Told.at armsAt_bucket_put 3 rfl rfl rfl publicAccess (by decide)).always
        (quiet.of_subset (by decide))
    · cases get
      exact (Told.at armsAt_bucket_get 3 rfl rfl rfl publicAccess (by decide)).always
        (quiet.of_subset (by decide))
    · cases delete
      exact (Told.at armsAt_bucket_delete 3 rfl rfl rfl publicAccess (by decide)).always
        (quiet.of_subset (by decide))
  rw [if_neg publicAccess] at routed
  rw [Bool.eq_false_of_not_eq_true publicAccess, Bool.false_or]
  have quiet := quiet.cons (Bool.eq_false_of_not_eq_true publicAccess)
  by_cases policyStatus : hasQ query "policyStatus" = true
  · rw [if_pos policyStatus] at routed
    rw [policyStatus, Bool.true_or, if_pos rfl]
    refine configuration_told routed (fun put => ?_) (fun get => ?_) (fun delete => ?_)
    · cases put
    · cases get
      exact (Told.at armsAt_bucket_get 4 rfl rfl rfl policyStatus (by decide)).always
        (quiet.of_subset (by decide))
    · cases delete
  rw [if_neg policyStatus] at routed
  rw [Bool.eq_false_of_not_eq_true policyStatus, Bool.false_or]
  have quiet := quiet.cons (Bool.eq_false_of_not_eq_true policyStatus)
  by_cases policy : hasQ query "policy" = true
  · rw [if_pos policy] at routed ⊢
    refine configuration_told routed (fun put => ?_) (fun get => ?_) (fun delete => ?_)
    · cases put
      exact (Told.at armsAt_bucket_put 4 rfl rfl rfl policy (by decide)).always
        (quiet.of_subset (by decide))
    · cases get
      exact (Told.at armsAt_bucket_get 5 rfl rfl rfl policy (by decide)).always
        (quiet.of_subset (by decide))
    · cases delete
      exact (Told.at armsAt_bucket_delete 4 rfl rfl rfl policy (by decide)).always
        (quiet.of_subset (by decide))
  · rw [if_neg policy] at routed ⊢
    have quiet := quiet.cons (Bool.eq_false_of_not_eq_true policy)
    exact routeBucketRules_told (quiet.of_subset (by decide)) routed

theorem routeVersions_ok (routed : routeVersions method query bucket = .ok op) :
    method = .get ∧ op.fits .get true = true ∧ op.bucket = bucket ∧ op.key = "" ∧
      op.action = "ListObjectVersions" := by
  rw [routeVersions] at routed
  split at routed
  · cases routed
  · next get =>
      split at routed
      · cases routed
      · cases marker : parseVersionIdParam (getQ query "version-id-marker") with
        | error e => rw [marker] at routed; cases routed
        | ok value =>
          cases maxKeys : parseMaxKeys (getQ query "max-keys") with
          | error e => rw [marker, maxKeys] at routed; cases routed
          | ok count =>
            rw [marker, maxKeys] at routed
            cases routed
            exact ⟨not_not.mp get, rfl, rfl, rfl, rfl⟩

theorem routeListV2_told (quiet : Unnamed query ["versioning", "versions"])
    (routed : routeListV2 query bucket = .ok op) :
    Told op method true bucket "" (actionAt query method true)
      (method = .head ∨ method = .get ∧ Unnamed query (earlySubresources .get)) := by
  obtain ⟨maxKeys, -, rfl⟩ := map_ok routed
  cases method with
  | head =>
    exact (Told.at armsAt_bucket_head 0 rfl rfl rfl rfl (by decide)).congr
      (iff_of_true Unnamed.nil (.inl rfl))
  | get =>
    refine (Told.at armsAt_bucket_get 13 rfl rfl rfl rfl (by decide)).congr ⟨?_, ?_⟩
    · exact fun clear => .inr ⟨rfl, clear.of_subset (by decide)⟩
    · intro clear
      obtain ⟨⟨⟩⟩ | ⟨-, clear⟩ := clear
      exact (quiet.append clear).of_subset (by decide)
  | put =>
    refine ⟨rfl, rfl, rfl, iff_of_false ?_ (by simp)⟩
    rw [actionAt, armsAt_bucket_put]
    exact firstMatch_ne (by decide : "ListBucket" ∉ _)
  | delete =>
    refine ⟨rfl, rfl, rfl, iff_of_false ?_ (by simp)⟩
    rw [actionAt, armsAt_bucket_delete]
    exact firstMatch_ne (by decide : "ListBucket" ∉ _)
  | post =>
    refine ⟨rfl, rfl, rfl, iff_of_false ?_ (by simp)⟩
    rw [actionAt, armsAt_bucket_post]
    exact firstMatch_ne (by decide : "ListBucket" ∉ _)
  | other name =>
    refine ⟨rfl, rfl, rfl, iff_of_false ?_ (by simp)⟩
    rw [actionAt, armsAt_other]
    exact firstMatch_ne (by decide : "ListBucket" ∉ _)

theorem routeBucket_told (routed : routeBucket xml method query body bucket = .ok op) :
    Told op method true bucket "" (actionAt query method true) (BucketClear query method) := by
  rw [routeBucket] at routed
  rw [BucketClear]
  by_cases location : hasQ query "location" = true
  · rw [if_pos location] at routed ⊢
    cases routed
    exact Told.never "GetBucketLocation" rfl rfl (by decide) not_false
  rw [if_neg location] at routed ⊢
  by_cases versioning : hasQ query "versioning" = true
  · rw [if_pos versioning] at routed
    rw [versioning, Bool.true_or, if_pos rfl]
    cases method with
    | put =>
      obtain ⟨status, -, rfl⟩ := map_ok routed
      exact Told.at armsAt_bucket_put 9 rfl rfl rfl versioning (by decide)
    | get =>
      cases routed
      exact Told.at armsAt_bucket_get 10 rfl rfl rfl versioning (by decide)
    | delete => cases routed
    | post => cases routed
    | head => cases routed
    | other name => cases routed
  rw [if_neg versioning] at routed
  rw [Bool.eq_false_of_not_eq_true versioning, Bool.false_or]
  have quiet : Unnamed query ["versioning"] :=
    Unnamed.nil.cons (Bool.eq_false_of_not_eq_true versioning)
  by_cases versions : hasQ query "versions" = true
  · rw [if_pos versions] at routed ⊢
    obtain ⟨rfl, fits, sameBucket, sameKey, own⟩ := routeVersions_ok routed
    have told : Told op .get true op.bucket op.key _ _ :=
      Told.at armsAt_bucket_get 11 rfl own fits versions (by decide)
    rw [sameBucket, sameKey] at told
    refine told.congr ⟨fun clear => clear.of_subset (by decide), ?_⟩
    exact fun clear => (quiet.append clear).of_subset (by decide)
  rw [if_neg versions] at routed ⊢
  have quiet := quiet.cons (Bool.eq_false_of_not_eq_true versions)
  by_cases listed : hasQ query "list-type" ∧ getQ query "list-type" = some "2"
  · rw [if_pos listed] at routed ⊢
    exact routeListV2_told (quiet.of_subset (by decide)) routed
  rw [if_neg listed] at routed ⊢
  by_cases delete : hasQ query "delete" = true
  · rw [if_pos delete] at routed ⊢
    split at routed
    · cases routed
    · next post =>
        obtain ⟨request, -, rfl⟩ := map_ok routed
        rw [not_not.mp post, actionAt, armsAt_bucket_post]
        refine ⟨rfl, rfl, rfl, iff_true_intro ?_⟩
        simp only [firstMatch, ArmGuard.holds, delete, Bool.not_true, Bool.false_eq_true, ↓reduceIte,
          Operation.action]
  rw [if_neg delete] at routed ⊢
  have quiet := quiet.cons (Bool.eq_false_of_not_eq_true delete)
  by_cases uploads : hasQ query "uploads" ∧ method = .get
  · rw [if_pos uploads] at routed ⊢
    obtain ⟨maxUploads, -, rfl⟩ := map_ok routed
    obtain ⟨-, rfl⟩ := uploads
    refine (Told.at armsAt_bucket_get 13 rfl rfl rfl rfl (by decide)).congr ⟨?_, ?_⟩
    · exact fun clear => clear.of_subset (by decide)
    · exact fun clear => (quiet.append clear).of_subset (by decide)
  · rw [if_neg uploads] at routed ⊢
    exact routeBucketConfig_told (quiet.of_subset (by decide)) routed

end Bucket

section Object

variable {xml : Xml} {method : Method} {query : List (String × String)} {body : Bytes}
  {bucket key : String} {op : Operation}

theorem routeUpload_told {uploadId : String}
    (routed : routeUpload xml method query body bucket key uploadId = .ok op) :
    Told op method false bucket key (actionAt query method false)
      (if (getQ query "partNumber").isSome then Unnamed query ["tagging", "retention", "legal-hold"]
        else method = .post ∧ Unnamed query ["restore"]) := by
  unfold routeUpload at routed
  cases part : getQ query "partNumber" with
  | some raw =>
    cases number : parsePartNumber raw with
    | error e => simp only [part, number] at routed; cases routed
    | ok partNumber =>
      simp only [part, number] at routed
      cases method with
      | put =>
        cases routed
        exact Told.at armsAt_object_put 3 rfl rfl rfl rfl (by decide)
      | get => cases routed
      | delete => cases routed
      | post => cases routed
      | head => cases routed
      | other name => cases routed
  | none =>
    simp only [part] at routed
    cases method with
    | post =>
      obtain ⟨parts, -, rfl⟩ := map_ok routed
      refine (Told.at armsAt_object_post 1 rfl rfl rfl rfl (by decide)).congr ⟨?_, ?_⟩
      · exact fun clear => ⟨rfl, clear⟩
      · exact fun clear => clear.2
    | delete =>
      cases routed
      exact Told.never "AbortMultipartUpload" rfl rfl (by decide) (by simp)
    | get =>
      obtain ⟨maxParts, -, rfl⟩ := map_ok routed
      exact Told.never "ListParts" rfl rfl (by decide) (by simp)
    | put => cases routed
    | head => cases routed
    | other name => cases routed

theorem routePart_told {raw : String} (routed : routePart method bucket key raw = .ok op) :
    Told op method false bucket key (actionAt query method false)
      (method = .head ∨ Unnamed query ["tagging", "retention", "legal-hold", "attributes"]) := by
  rw [routePart] at routed
  cases number : parsePartNumber raw with
  | error e => rw [number] at routed; cases routed
  | ok partNumber =>
    rw [number] at routed
    cases method with
    | get =>
      cases routed
      refine (Told.at armsAt_object_get 4 rfl rfl rfl rfl (by decide)).congr ⟨?_, ?_⟩
      · exact fun clear => .inr clear
      · intro clear
        obtain ⟨⟨⟩⟩ | clear := clear
        exact clear
    | head =>
      cases routed
      exact (Told.at armsAt_object_head 0 rfl rfl rfl rfl (by decide)).congr
        (iff_of_true Unnamed.nil (.inl rfl))
    | put => cases routed
    | delete => cases routed
    | post => cases routed
    | other name => cases routed

theorem routePut_told (routed : routePut xml query body bucket key = .ok op) :
    Told op .put false bucket key (actionAt query .put false) True := by
  rw [routePut] at routed
  by_cases acl : hasQ query "acl" = true
  · rw [if_pos acl] at routed
    cases routed
  rw [if_neg acl] at routed
  by_cases tagging : hasQ query "tagging" = true
  · rw [if_pos tagging] at routed
    obtain ⟨version, -, routed⟩ := bind_ok routed
    obtain ⟨tags, -, routed⟩ := bind_ok routed
    cases routed
    exact (Told.at armsAt_object_put 0 rfl rfl rfl tagging (by decide)).always Unnamed.nil
  rw [if_neg tagging] at routed
  have quiet : Unnamed query ["tagging"] := Unnamed.nil.cons (Bool.eq_false_of_not_eq_true tagging)
  by_cases retention : hasQ query "retention" = true
  · rw [if_pos retention] at routed
    obtain ⟨version, -, routed⟩ := bind_ok routed
    obtain ⟨setting, -, routed⟩ := bind_ok routed
    cases routed
    exact (Told.at armsAt_object_put 1 rfl rfl rfl retention (by decide)).always
      (quiet.of_subset (by decide))
  rw [if_neg retention] at routed
  have quiet := quiet.cons (Bool.eq_false_of_not_eq_true retention)
  by_cases legalHold : hasQ query "legal-hold" = true
  · rw [if_pos legalHold] at routed
    obtain ⟨version, -, routed⟩ := bind_ok routed
    obtain ⟨setting, -, routed⟩ := bind_ok routed
    cases routed
    exact (Told.at armsAt_object_put 2 rfl rfl rfl legalHold (by decide)).always
      (quiet.of_subset (by decide))
  rw [if_neg legalHold] at routed
  have quiet := quiet.cons (Bool.eq_false_of_not_eq_true legalHold)
  split at routed
  · cases routed
  · cases routed
    exact (Told.at armsAt_object_put 3 rfl rfl rfl rfl (by decide)).always (quiet.of_subset (by decide))

theorem routeGet_told (routed : routeGet query bucket key = .ok op) :
    Told op .get false bucket key (actionAt query .get false) (hasQ query "acl" = false) := by
  rw [routeGet] at routed
  by_cases acl : hasQ query "acl" = true
  · rw [if_pos acl] at routed
    split at routed
    · cases routed
    · cases routed
      exact Told.never "GetObjectAcl" rfl rfl (by decide) (by rw [acl]; decide)
  rw [if_neg acl] at routed
  suffices told : Told op .get false bucket key (actionAt query .get false) True from
    told.congr (iff_of_true trivial (Bool.eq_false_of_not_eq_true acl))
  by_cases tagging : hasQ query "tagging" = true
  · rw [if_pos tagging] at routed
    obtain ⟨version, -, rfl⟩ := map_ok routed
    exact (Told.at armsAt_object_get 0 rfl rfl rfl tagging (by decide)).always Unnamed.nil
  rw [if_neg tagging] at routed
  have quiet : Unnamed query ["tagging"] := Unnamed.nil.cons (Bool.eq_false_of_not_eq_true tagging)
  by_cases retention : hasQ query "retention" = true
  · rw [if_pos retention] at routed
    obtain ⟨version, -, rfl⟩ := map_ok routed
    exact (Told.at armsAt_object_get 1 rfl rfl rfl retention (by decide)).always
      (quiet.of_subset (by decide))
  rw [if_neg retention] at routed
  have quiet := quiet.cons (Bool.eq_false_of_not_eq_true retention)
  by_cases legalHold : hasQ query "legal-hold" = true
  · rw [if_pos legalHold] at routed
    obtain ⟨version, -, rfl⟩ := map_ok routed
    exact (Told.at armsAt_object_get 2 rfl rfl rfl legalHold (by decide)).always
      (quiet.of_subset (by decide))
  rw [if_neg legalHold] at routed
  have quiet := quiet.cons (Bool.eq_false_of_not_eq_true legalHold)
  by_cases attributes : hasQ query "attributes" = true
  · rw [if_pos attributes] at routed
    obtain ⟨version, -, rfl⟩ := map_ok routed
    exact (Told.at armsAt_object_get 3 rfl rfl rfl attributes (by decide)).always
      (quiet.of_subset (by decide))
  · rw [if_neg attributes] at routed
    have quiet := quiet.cons (Bool.eq_false_of_not_eq_true attributes)
    obtain ⟨version, -, rfl⟩ := map_ok routed
    exact (Told.at armsAt_object_get 4 rfl rfl rfl rfl (by decide)).always (quiet.of_subset (by decide))

theorem routePlainObject_told (routed : routePlainObject xml method query body bucket key = .ok op) :
    Told op method false bucket key (actionAt query method false) (method = .get → hasQ query "acl" = false) := by
  cases method with
  | put => exact (routePut_told routed).congr (iff_of_true trivial (by simp))
  | get => exact (routeGet_told routed).congr ⟨fun absent _ => absent, fun absent => absent rfl⟩
  | head =>
    obtain ⟨version, -, rfl⟩ := map_ok routed
    exact (Told.at armsAt_object_head 0 rfl rfl rfl rfl (by decide)).congr
      (iff_of_true Unnamed.nil (by simp))
  | delete =>
    simp only [routePlainObject] at routed
    split at routed
    · next tagging =>
        obtain ⟨version, -, rfl⟩ := map_ok routed
        exact (Told.at armsAt_object_delete 0 rfl rfl rfl tagging (by decide)).congr
          (iff_of_true Unnamed.nil (by simp))
    · next tagging =>
        obtain ⟨version, -, rfl⟩ := map_ok routed
        exact (Told.at armsAt_object_delete 1 rfl rfl rfl rfl (by decide)).congr
          (iff_of_true (Unnamed.nil.cons (Bool.eq_false_of_not_eq_true tagging)) (by simp))
  | post =>
    simp only [routePlainObject] at routed
    split at routed
    · next restore =>
        obtain ⟨version, -, rfl⟩ := map_ok routed
        exact (Told.at armsAt_object_post 0 rfl rfl rfl restore (by decide)).congr
          (iff_of_true Unnamed.nil (by simp))
    · cases routed
  | other name => cases routed

theorem routeObject_told (routed : routeObject xml method query body bucket key = .ok op) :
    Told op method false bucket key (actionAt query method false) (ObjectClear query method) := by
  unfold routeObject at routed
  rw [ObjectClear]
  cases upload : getQ query "uploadId" with
  | some uploadId =>
    rw [upload] at routed
    rw [Option.isSome_some, if_pos rfl]
    exact routeUpload_told routed
  | none =>
    simp only [upload] at routed
    rw [Option.isSome_none, if_neg Bool.false_ne_true]
    by_cases uploads : hasQ query "uploads" = true
    · rw [if_pos uploads] at routed ⊢
      split at routed
      · cases routed
      · next post =>
          cases routed
          rw [not_not.mp post]
          exact Told.at armsAt_object_post 1 rfl rfl rfl rfl (by decide)
    · rw [if_neg uploads] at routed ⊢
      cases part : getQ query "partNumber" with
      | some raw =>
        simp only [part] at routed
        rw [Option.isSome_some, if_pos rfl]
        exact routePart_told routed
      | none =>
        simp only [part] at routed
        rw [Option.isSome_none, if_neg Bool.false_ne_true]
        exact routePlainObject_told routed

end Object

section Split

variable {text : List Char}

theorem trimSlashes_head {path : String} {first : Char} {rest : List Char}
    (trimmed : trimSlashes path = first :: rest) : first ≠ '/' := by
  have head := List.head?_dropWhile_not (· = '/') path.toList
  rw [show path.toList.dropWhile (· = '/') = first :: rest from trimmed, List.head?_cons] at head
  simpa using head

theorem splitSlash_bucket {path : String} (given : trimSlashes path ≠ []) :
    (splitSlash (trimSlashes path)).1 ≠ "" := by
  intro same
  cases trimmed : trimSlashes path with
  | nil => exact given trimmed
  | cons first rest =>
    have apart : first ≠ '/' := trimSlashes_head trimmed
    have listed := congrArg String.toList same
    simp only [trimmed, splitSlash, String.toList_ofList, List.takeWhile_cons, apart, ne_eq,
      not_false_eq_true, decide_true, ↓reduceIte] at listed
    cases listed

theorem splitSlash_key (given : text ≠ []) : (splitSlash text).2 ≠ String.ofList text := by
  intro same
  have listed : (text.dropWhile (· ≠ '/')).drop 1 = text := by
    simpa only [splitSlash, String.toList_ofList] using congrArg String.toList same
  have shorter : (text.dropWhile (· ≠ '/')).length ≤ text.length :=
    (List.dropWhile_sublist _).length_le
  have counted := congrArg List.length listed
  rw [List.length_drop] at counted
  have some : 0 < text.length := List.length_pos_iff.mpr given
  omega

end Split

/-- The reading of a request under which it is authorized is the one under which it runs. -/
structure AuthorizedAs (request : S3Request) (op : Operation) : Prop where
  bucket : (routeOpBucketKey request).2.2.1 = op.bucket
  key : (routeOpBucketKey request).2.2.2 = op.key
  action : s3ActionName (routeOpBucketKey request).2.1 (routeOpBucketKey request).2.2.1
    (routeOpBucketKey request).2.2.2 = op.action

def Clear (request : S3Request) : Prop :=
  (splitSlash (trimSlashes request.path)).1 ≠ "" →
    if (splitSlash (trimSlashes request.path)).2 = "" then BucketClear request.query request.method
    else ObjectClear request.query request.method

theorem AuthorizedAs.iff_of_told {request : S3Request} {op : Operation} {clear : Prop}
    (told : Told op request.method (decide ((routeOpBucketKey request).2.2.2 = ""))
      (routeOpBucketKey request).2.2.1 (routeOpBucketKey request).2.2.2
      (s3ActionName (routeOpBucketKey request).2.1 (routeOpBucketKey request).2.2.1
        (routeOpBucketKey request).2.2.2) clear) :
    AuthorizedAs request op ↔ clear :=
  ⟨fun authorized => told.action.mp authorized.action,
    fun holds => ⟨told.bucket.symm, told.key.symm, told.action.mpr holds⟩⟩

section Requests

variable {router : Router} {std : HostText} {xml : Xml} {request : S3Request} {op : Operation}

theorem virtualBucket_ne {host bucket : String}
    (virtual : router.virtualBucket std host = some bucket) : bucket ≠ "" := by
  simp only [Router.virtualBucket] at virtual
  split at virtual
  · cases virtual
  · split at virtual
    · cases virtual
    · next labelled =>
        cases virtual
        intro same
        apply labelled
        have listed := congrArg String.toList same
        rw [String.toList_ofList] at listed
        rw [listed]
        rfl

theorem route_pathStyle_told (pathStyle : router.virtualBucket std request.host = none)
    (routed : router.route std xml request.method request.host request.path request.query
      request.body = .ok op) :
    Told op request.method (decide ((routeOpBucketKey request).2.2.2 = ""))
      (routeOpBucketKey request).2.2.1 (routeOpBucketKey request).2.2.2
      (s3ActionName (routeOpBucketKey request).2.1 (routeOpBucketKey request).2.2.1
        (routeOpBucketKey request).2.2.2) (Clear request) := by
  rw [Router.route, Router.bucketOf, pathStyle, pBucketOfPath] at routed
  by_cases bare : trimSlashes request.path = []
  · have clear : Clear request := by
      rw [Clear, bare]
      exact fun given => absurd rfl given
    simp only [bare, List.isEmpty_nil, ↓reduceIte, Option.orElse_none, routeService] at routed
    split at routed
    · next listed =>
        cases routed
        have read : routeOpBucketKey request = (.listBuckets, "ListBuckets", "", "") := by
          rw [routeOpBucketKey, bare, listed.1]
          rfl
        rw [read]
        exact ⟨rfl, rfl, rfl, iff_of_true rfl clear⟩
    · cases routed
  · have filled : (trimSlashes request.path).isEmpty = false := by
      rw [List.isEmpty_eq_false_iff]
      exact bare
    simp only [filled, Bool.false_eq_true, ↓reduceIte, Option.orElse_some] at routed
    rw [Clear, forall_prop_of_true (splitSlash_bucket bare)]
    have action := requestName_action request.method (splitSlash (trimSlashes request.path)).2
      request.query (splitSlash_bucket bare)
    change Told op request.method
      (decide ((splitSlash (trimSlashes request.path)).2 = "")) (splitSlash (trimSlashes request.path)).1
      (splitSlash (trimSlashes request.path)).2 (s3ActionName (requestName request.method
        (splitSlash (trimSlashes request.path)).1 (splitSlash (trimSlashes request.path)).2
        request.query).2 (splitSlash (trimSlashes request.path)).1
        (splitSlash (trimSlashes request.path)).2) _
    rw [action]
    by_cases onBucket : (splitSlash (trimSlashes request.path)).2 = ""
    · rw [if_pos onBucket] at routed ⊢
      rw [onBucket, decide_eq_true rfl]
      exact routeBucket_told routed
    · rw [if_neg onBucket] at routed ⊢
      rw [decide_eq_false onBucket]
      exact routeObject_told routed

theorem route_virtualHost_target {bucket : String}
    (virtual : router.virtualBucket std request.host = some bucket)
    (routed : router.route std xml request.method request.host request.path request.query
      request.body = .ok op) :
    (∃ onBucket, op.fits request.method onBucket = true) ∧ ¬((routeOpBucketKey request).2.2.1 = op.bucket ∧
      (routeOpBucketKey request).2.2.2 = op.key) := by
  rw [Router.route, Router.bucketOf, virtual] at routed
  simp only [Option.orElse_some] at routed
  by_cases bare : trimSlashes request.path = []
  · have none : (routeOpBucketKey request).2.2.1 = "" := by
      rw [routeOpBucketKey, bare]
      rfl
    rw [bare, if_pos rfl] at routed
    have told := routeBucket_told routed
    refine ⟨⟨_, told.fits⟩, fun same => virtualBucket_ne virtual ?_⟩
    exact told.bucket.symm.trans (same.1.symm.trans none)
  · have filled : String.ofList (trimSlashes request.path) ≠ "" := by
      intro same
      have listed := congrArg String.toList same
      rw [String.toList_ofList] at listed
      exact bare listed
    rw [if_neg filled] at routed
    have told := routeObject_told routed
    exact ⟨⟨_, told.fits⟩, fun same => splitSlash_key bare (same.2.trans told.key)⟩

theorem operation_route (routed : router.operation std xml request = .ok op) :
    ∃ first, router.route std xml request.method request.host request.path request.query
        request.body = .ok first ∧
      op.bucket = first.bucket ∧ op.key = first.key ∧ op.action = first.action := by
  rw [Router.operation] at routed
  cases found : router.route std xml request.method request.host request.path request.query
      request.body with
  | error e => rw [found] at routed; cases routed
  | ok first =>
    rw [found] at routed
    refine ⟨_, rfl, ?_⟩
    change (if request.method = .put then _ else _) = _ at routed
    split at routed
    · cases named : request.header "x-amz-copy-source" with
      | none => simp only [named] at routed; cases routed; exact ⟨rfl, rfl, rfl⟩
      | some raw =>
        simp only [named] at routed
        obtain ⟨source, -, routed⟩ := bind_ok routed
        split at routed
        · cases routed; exact ⟨rfl, rfl, rfl⟩
        · cases routed; exact ⟨rfl, rfl, rfl⟩
        · cases routed; exact ⟨rfl, rfl, rfl⟩
    · cases routed; exact ⟨rfl, rfl, rfl⟩

/-- A request is authorized as the operation that it runs when its host is not a bucket's and both
readings take the same sub-resource, and only then. -/
theorem operation_authorized_iff (router : Router) (std : HostText) (xml : Xml)
    (request : S3Request) (op : Operation) (routed : router.operation std xml request = .ok op) :
    AuthorizedAs request op ↔
      router.virtualBucket std request.host = none ∧ Clear request := by
  obtain ⟨first, routed, bucket, key, action⟩ := operation_route routed
  have same : AuthorizedAs request op ↔ AuthorizedAs request first := by
    constructor
    · exact fun told => ⟨told.bucket.trans bucket, told.key.trans key, told.action.trans action⟩
    · exact fun told =>
        ⟨told.bucket.trans bucket.symm, told.key.trans key.symm, told.action.trans action.symm⟩
  rw [same]
  cases virtual : router.virtualBucket std request.host with
  | none =>
    rw [AuthorizedAs.iff_of_told (route_pathStyle_told virtual routed)]
    exact ⟨fun clear => ⟨rfl, clear⟩, fun both => both.2⟩
  | some bucket =>
    have apart := (route_virtualHost_target virtual routed).2
    exact iff_of_false (fun authorized => apart ⟨authorized.bucket, authorized.key⟩)
      fun both => nomatch both.1

/-! The parsers on a request without a body. -/

def emptyBody {α : Type} (root : String) : Bytes → Except S3Error α :=
  fun _ => .error ⟨.malformedXML, root ++ " body is empty"⟩

def bodiless : Xml where
  parseCreateBucketConfiguration := fun _ => .ok none
  parseVersioningConfiguration := emptyBody "VersioningConfiguration"
  parseDeleteObjectsFull := fun _ => .error "malformed XML: missing <Delete>"
  parseTagging := fun body _ => emptyBody "Tagging" body
  parseCorsConfiguration := emptyBody "CORSConfiguration"
  parseOwnershipControls := emptyBody "OwnershipControls"
  parsePublicAccessBlock := emptyBody "PublicAccessBlockConfiguration"
  parseBucketEncryption := emptyBody "ServerSideEncryptionConfiguration"
  parseObjectLockConfiguration := emptyBody "ObjectLockConfiguration"
  parseLifecycleConfiguration := emptyBody "LifecycleConfiguration"
  parseNotificationConfiguration := emptyBody "NotificationConfiguration"
  parseInventoryConfiguration := emptyBody "InventoryConfiguration"
  parseCompleteMultipart := fun _ => .error "malformed XML: missing <CompleteMultipartUpload>"
  parseRetentionBody := emptyBody "Retention"
  parseLegalHoldBody := emptyBody "LegalHold"
  parseCopySource := fun _ => .error ⟨.invalidArgument,
    "The copy source must be of the form /bucket/key or bucket/key"⟩

def plainHosts : HostText where
  toLowercase := Text.lower
  isIpAddr := fun _ => false

def plainGet (host path : String) (query : List (String × String)) : S3Request where
  method := .get
  path := path
  host := host
  query := query
  headers := []
  body := []

theorem operation_authorized_path_style :
    AuthorizedAs (plainGet "s3.example.com" "/b1/k1" [("versionId", "null")])
        (.getObject "b1" "k1" (some .null)) ↔
      (Router.new ["s3.example.com"]).virtualBucket plainHosts "s3.example.com" = none ∧
        Clear (plainGet "s3.example.com" "/b1/k1" [("versionId", "null")]) :=
  operation_authorized_iff (Router.new ["s3.example.com"]) plainHosts bodiless _ _ (by decide +kernel)

/-- The owner of a bucket reads the object of another one: its request is authorized for the bucket that
the key begins with. -/
theorem virtual_host_not_authorized :
    ¬∀ (router : Router) (std : HostText) (xml : Xml) (request : S3Request) (op : Operation),
      router.operation std xml request = .ok op → AuthorizedAs request op := by
  intro all
  have routed : (Router.new ["s3.example.com"]).operation plainHosts bodiless
      (plainGet "secret.s3.example.com" "/open/k1" []) = .ok (.getObject "secret" "open/k1" none) := by
    decide +kernel
  have read : (routeOpBucketKey (plainGet "secret.s3.example.com" "/open/k1" [])).2.2.1 = "open" := by
    decide +kernel
  have same := (all _ _ _ _ _ routed).bucket
  rw [read] at same
  exact absurd same (by decide)

end Requests

end FastS3.S3
