import FastS3.S3.Handle
import FastS3.S3.RoutedAction

namespace FastS3.S3

open Data
open Meta (Store)

/-! Whether a request is authorized for everything that it touches. -/

/-- The policies were evaluated for an access, and allowed it.  An upload is touched under the bucket
and the key of the request. -/
def Access.Mediated (answers : Answers) (op : Operation) (evaluated : List Evaluation) :
    Access → Prop
  | content bucket key => ⟨"GetObject", bucket, key⟩ ∈ evaluated
  | removal action bucket key => ⟨action, bucket, key⟩ ∈ evaluated
  | bypass bucket key => ⟨"BypassGovernanceRetention", bucket, key⟩ ∈ evaluated
  | upload id => answers.upload id = some ⟨op.bucket, op.key⟩ ∧
      ∃ action, ⟨action, op.bucket, op.key⟩ ∈ evaluated

def Run.Mediated (answers : Answers) (run : Run) : Prop :=
  ∀ access ∈ run.accesses, access.Mediated answers run.op run.evaluated

/-- When a request is authorized for everything that it touches: its own object under a host and a
query that both readings take for the same, an upload of its own object, no source of a copy, and no
entry of a batch. -/
def Answers.Covered (answers : Answers) (front : Front) (request : S3Request) (op : Operation) :
    Prop :=
  let pathStyle := front.router.virtualBucket front.std request.host = none
  let own := pathStyle ∧ Clear request
  let ownUpload (id : String) :=
    (answers.upload id).isSome = true → answers.upload id = some ⟨op.bucket, op.key⟩ ∧ pathStyle
  match op with
  | .getObject bucket key version => answers.reads op bucket key version = true → own
  | .getObjectPart bucket key _ => answers.reads op bucket key none = true → own
  | .putObject bucket _ =>
    (answers.versioning bucket).isSome ∧ answers.accepts op ∧ answers.replaces op → own
  | .copyObject bucket key source directive _ _ _ _ =>
    answers.accepts op = true → ∀ marker,
      answers.copySourceMarker bucket key source directive = some marker →
        marker = true ∧ (answers.replaces op = true → own)
  | .uploadPart bucket _ _ id =>
    (answers.versioning bucket).isSome ∧ answers.accepts op → ownUpload id
  | .uploadPartCopy bucket _ _ id source _ =>
    answers.partSource bucket source = true →
      ((answers.upload id).isSome = true → answers.accepts op = false) ∧ ownUpload id
  | .completeMultipartUpload _ _ id parts =>
    parts ≠ [] ∧ answers.accepts op →
      ownUpload id ∧ ((answers.upload id).isSome ∧ answers.replaces op → own)
  | .abortMultipartUpload _ _ id => ownUpload id
  | .listParts bucket _ id _ _ => (answers.versioning bucket).isSome = true → ownUpload id
  | .createMultipartUpload bucket _ =>
    (answers.versioning bucket).isSome ∧ answers.accepts op →
      ∀ id ∈ answers.expired, answers.upload id = some ⟨op.bucket, op.key⟩ ∧ pathStyle
  | .deleteObject bucket key version =>
    answers.deleteObject op bucket key version request.bypassGovernance ≠ [] → own
  | .deleteObjects bucket _ keys =>
    answers.deleteObjects bucket keys request.bypassGovernance = []
  | _ => True

section Names

variable {method : Method} {bucket key name action : String} {query : List (String × String)}

theorem requestName_named (named : (requestName method bucket key query).2 = name)
    (bucketless : name ≠ "ListBuckets") (given : name ≠ "Other") :
    ∃ arm ∈ requestArms, arm.1.method = method ∧ arm.1.key.admits key = true ∧ arm.2.2 = name := by
  rw [requestName] at named
  split at named
  · exact absurd named.symm bucketless
  · have source : _ ∨ ∃ arm ∈ requestArms, arm.1.holds method key query = true ∧
        firstMatch (RequestArm.holds method key query) requestArms (.other, "Other") = arm.2 :=
      firstMatch_source
    obtain other | ⟨arm, inside, holds, found⟩ := source
    · rw [other] at named
      exact absurd named.symm given
    · rw [found] at named
      simp only [RequestArm.holds, Bool.and_eq_true, decide_eq_true_eq] at holds
      exact ⟨arm, inside, holds.1.1, holds.1.2, named⟩

theorem requestName_postObject (named : (requestName method bucket key query).2 = "PostObject") :
    method = .post ∧ key = "" := by
  obtain ⟨arm, inside, same, admits, own⟩ := requestName_named named (by decide) (by decide)
  have listed : ∀ arm ∈ requestArms, arm.2.2 = "PostObject" →
      arm.1.method = .post ∧ arm.1.key = .empty := by
    decide
  obtain ⟨post, empty⟩ := listed arm inside own
  rw [empty, KeyPattern.admits, decide_eq_true_eq] at admits
  exact ⟨same.symm.trans post, admits⟩

theorem requestName_method (verb : Method) (named : (requestName method bucket key query).2 = name)
    (bucketless : name ≠ "ListBuckets") (given : name ≠ "Other")
    (listed : ∀ arm ∈ requestArms, arm.2.2 = name → arm.1.method = verb) : method = verb := by
  obtain ⟨arm, inside, same, -, own⟩ := requestName_named named bucketless given
  exact same.symm.trans (listed arm inside own)

theorem s3ActionName_inv (same : s3ActionName name bucket key = action)
    (listing : action ≠ "ListBucket") (buckets : action ≠ "ListAllMyBuckets")
    (form : action ≠ "PutObject") : name = action := by
  rw [s3ActionName] at same
  split at same
  · exact absurd same.symm listing
  · split at same
    · exact absurd same.symm listing
    · split at same
      · exact absurd same.symm buckets
      · split at same
        · exact absurd same.symm form
        · exact same

end Names

def S3Request.ownEvaluation (request : S3Request) : Evaluation :=
  ⟨s3ActionName (routeOpBucketKey request).2.1 (routeOpBucketKey request).2.2.1
      (routeOpBucketKey request).2.2.2,
    (routeOpBucketKey request).2.2.1, (routeOpBucketKey request).2.2.2⟩

def S3Request.bypassEvaluation (request : S3Request) : Evaluation :=
  ⟨"BypassGovernanceRetention", (routeOpBucketKey request).2.2.1, (routeOpBucketKey request).2.2.2⟩

inductive Judged (request : S3Request) : List Evaluation → Prop
  | form (named : (routeOpBucketKey request).2.1 = "PostObject") : Judged request []
  | own (plain : request.method = .delete → (routeOpBucketKey request).2.1 = "DeleteObject" →
      request.bypassGovernance = false) : Judged request [request.ownEvaluation]
  | bypass (named : (routeOpBucketKey request).2.1 = "PutObjectRetention" ∨
      (routeOpBucketKey request).2.1 = "DeleteObject") :
      Judged request [request.ownEvaluation, request.bypassEvaluation]

section Evaluate

variable {service : S3Service} {around : Surroundings} {front : Front} {request : S3Request}
  {auth : Option AuthIdentity} {evaluated : List Evaluation}

theorem authorizeRequest_judged
    (allowed : service.authorizeRequest around front request auth = .ok evaluated) :
    Judged request evaluated := by
  rw [S3Service.authorizeRequest] at allowed
  obtain ⟨-, -, allowed⟩ := bind_ok allowed
  split at allowed
  · next passing =>
      obtain ⟨-, -, allowed⟩ := bind_ok allowed
      cases allowed
      exact .bypass passing.2
  · next passing =>
      cases allowed
      refine .own fun _ named => ?_
      cases header : request.bypassGovernance with
      | false => rfl
      | true => exact absurd ⟨header, .inr named⟩ passing

theorem evaluate_judged (allowed : service.evaluate around front request auth = .ok evaluated) :
    Judged request evaluated := by
  simp only [S3Service.evaluate] at allowed
  split at allowed
  · split at allowed
    · next reading =>
        cases allowed
        refine .own fun deleting _ => ?_
        obtain get | head := reading.1
        · rw [get] at deleting
          cases deleting
        · rw [head] at deleting
          cases deleting
    · cases allowed
  · split at allowed
    · next named =>
        cases allowed
        exact .form named
    · exact authorizeRequest_judged allowed

end Evaluate

/-- The method of an operation and whether it is on a bucket; a copy is put on an object. -/
def Operation.placed (method : Method) (onBucket : Bool) (op : Operation) : Bool :=
  match op with
  | copyObject _ _ _ _ _ _ _ _ | uploadPartCopy _ _ _ _ _ _ => method = .put && !onBucket
  | _ => op.fits method onBucket

inductive Reading (front : Front) (request : S3Request) (op : Operation) : Prop
  | same (pathStyle : front.router.virtualBucket front.std request.host = none)
      (placed : op.placed request.method (decide (request.ownEvaluation.key = "")) = true)
      (bucket : op.bucket = request.ownEvaluation.bucket) (key : op.key = request.ownEvaluation.key)
      (action : request.ownEvaluation.action = op.action ↔ Clear request)
  | apart (virtual : front.router.virtualBucket front.std request.host ≠ none)
      (placed : ∃ onBucket, op.placed request.method onBucket = true)
      (other : ¬(request.ownEvaluation.bucket = op.bucket ∧ request.ownEvaluation.key = op.key))

section Reading

variable {front : Front} {request : S3Request} {op : Operation}

theorem Operation.placed_of_fits {method : Method} {onBucket : Bool}
    (fits : op.fits method onBucket = true) : op.placed method onBucket = true := by
  cases op with
  | copyObject => cases fits
  | uploadPartCopy => cases fits
  | _ => exact fits

theorem route_reading (routed : front.router.route front.std front.xml request.method request.host
    request.path request.query request.body = .ok op) : Reading front request op := by
  cases virtual : front.router.virtualBucket front.std request.host with
  | none =>
    have told := route_pathStyle_told virtual routed
    exact .same virtual (Operation.placed_of_fits told.fits) told.bucket told.key told.action
  | some bucket =>
    obtain ⟨⟨onBucket, fits⟩, other⟩ := route_virtualHost_target virtual routed
    refine .apart ?_ ⟨onBucket, Operation.placed_of_fits fits⟩ other
    rw [virtual]
    exact Option.some_ne_none bucket

theorem Reading.method {verb : Method} (reading : Reading front request op)
    (placed : ∀ method onBucket, op.placed method onBucket = true → method = verb) :
    request.method = verb := by
  cases reading with
  | same _ first => exact placed _ _ first
  | apart _ first =>
    obtain ⟨onBucket, first⟩ := first
    exact placed _ _ first

theorem Reading.congr {other : Operation} (reading : Reading front request op)
    (bucket : other.bucket = op.bucket) (key : other.key = op.key) (action : other.action = op.action)
    (placed : ∀ onBucket, op.placed request.method onBucket = true →
      other.placed request.method onBucket = true) : Reading front request other := by
  cases reading with
  | same pathStyle first sameBucket sameKey own =>
    refine .same pathStyle (placed _ first) (bucket.trans sameBucket) (key.trans sameKey) ?_
    rw [action]
    exact own
  | apart virtual first apart =>
    obtain ⟨onBucket, first⟩ := first
    refine .apart virtual ⟨onBucket, placed onBucket first⟩ ?_
    rw [bucket, key]
    exact apart

theorem operation_reading
    (routed : front.router.operation front.std front.xml request = .ok op) :
    Reading front request op := by
  rw [Router.operation] at routed
  cases found : front.router.route front.std front.xml request.method request.host request.path
      request.query request.body with
  | error e => rw [found] at routed; cases routed
  | ok first =>
    have reading := route_reading found
    rw [found] at routed
    change (if request.method = .put then _ else _) = _ at routed
    split at routed
    · cases named : request.header "x-amz-copy-source" with
      | none => simp only [named] at routed; cases routed; exact reading
      | some raw =>
        simp only [named] at routed
        obtain ⟨source, -, routed⟩ := bind_ok routed
        split at routed
        · cases routed
          exact reading.congr rfl rfl rfl fun onBucket placed => placed
        · cases routed
          exact reading.congr rfl rfl rfl fun onBucket placed => placed
        · cases routed; exact reading
    · cases routed; exact reading

theorem Operation.action_ne_bypass (op : Operation) : op.action ≠ "BypassGovernanceRetention" := by
  cases op <;> simp only [action, ne_eq, String.reduceEq, not_false_eq_true]

section Judged

variable {evaluated : List Evaluation} (judged : Judged request evaluated)
  (reading : Reading front request op)

include judged reading

theorem Judged.not_form (elsewhere : op.placed .post true = false)
    (pathStyle : front.router.virtualBucket front.std request.host = none) : evaluated ≠ [] := by
  intro none
  cases judged with
  | own => cases none
  | bypass => cases none
  | form named =>
    cases reading with
    | apart virtual => exact virtual pathStyle
    | same _ placed =>
      obtain ⟨post, empty⟩ := requestName_postObject named
      have level : decide (request.ownEvaluation.key = "") = true := decide_eq_true empty
      rw [post, level, elsewhere] at placed
      cases placed

theorem own_mem_iff (elsewhere : op.placed .post true = false) :
    ⟨op.action, op.bucket, op.key⟩ ∈ evaluated ↔
      front.router.virtualBucket front.std request.host = none ∧ Clear request := by
  have matched : (⟨op.action, op.bucket, op.key⟩ : Evaluation) = request.ownEvaluation ↔
      front.router.virtualBucket front.std request.host = none ∧ Clear request := by
    cases reading with
    | same pathStyle _ bucket key action =>
      rw [← action]
      constructor
      · exact fun same => ⟨pathStyle, (congrArg Evaluation.action same).symm⟩
      · intro both
        rw [bucket, key, ← both.2]
    | apart virtual _ other =>
      refine iff_of_false (fun same => other ?_) fun both => virtual both.1
      exact ⟨(congrArg Evaluation.bucket same).symm, (congrArg Evaluation.key same).symm⟩
  have unlike : (⟨op.action, op.bucket, op.key⟩ : Evaluation) ≠ request.bypassEvaluation :=
    fun same => op.action_ne_bypass (congrArg Evaluation.action same)
  rw [← matched]
  constructor
  · intro inside
    cases judged with
    | form => cases inside
    | own => exact List.mem_singleton.mp inside
    | bypass =>
      obtain same | rest := List.mem_cons.mp inside
      · exact same
      · exact absurd (List.mem_singleton.mp rest) unlike
  · intro same
    have filled := judged.not_form reading elsewhere (matched.mp same).1
    rw [same]
    cases judged with
    | form => exact absurd rfl filled
    | own => exact List.mem_singleton.mpr rfl
    | bypass => exact List.mem_cons_self

theorem target_mem_iff (elsewhere : op.placed .post true = false) :
    (∃ action, ⟨action, op.bucket, op.key⟩ ∈ evaluated) ↔
      front.router.virtualBucket front.std request.host = none := by
  constructor
  · intro inside
    obtain ⟨action, inside⟩ := inside
    cases reading with
    | same pathStyle => exact pathStyle
    | apart _ _ other =>
      exfalso
      apply other
      cases judged with
      | form => cases inside
      | own =>
        have same := List.mem_singleton.mp inside
        exact ⟨(congrArg Evaluation.bucket same).symm, (congrArg Evaluation.key same).symm⟩
      | bypass =>
        obtain same | rest := List.mem_cons.mp inside
        · exact ⟨(congrArg Evaluation.bucket same).symm, (congrArg Evaluation.key same).symm⟩
        · have same := List.mem_singleton.mp rest
          exact ⟨(congrArg Evaluation.bucket same).symm, (congrArg Evaluation.key same).symm⟩
  · intro pathStyle
    have filled := judged.not_form reading elsewhere pathStyle
    cases reading with
    | apart virtual => exact absurd pathStyle virtual
    | same _ _ bucket key =>
      rw [bucket, key]
      cases judged with
      | form => exact absurd rfl filled
      | own => exact ⟨_, List.mem_singleton.mpr rfl⟩
      | bypass => exact ⟨_, List.mem_cons_self⟩

end Judged

theorem Judged.not_mem {evaluated : List Evaluation} (judged : Judged request evaluated)
    {action : String} (verb : Method) (listing : action ≠ "ListBucket")
    (buckets : action ≠ "ListAllMyBuckets") (form : action ≠ "PutObject")
    (passing : action ≠ "BypassGovernanceRetention") (bucketless : action ≠ "ListBuckets")
    (given : action ≠ "Other")
    (listed : ∀ arm ∈ requestArms, arm.2.2 = action → arm.1.method = verb)
    (method : request.method ≠ verb) (bucket key : String) : ⟨action, bucket, key⟩ ∉ evaluated := by
  have own : (⟨action, bucket, key⟩ : Evaluation) ≠ request.ownEvaluation := by
    intro same
    have named := s3ActionName_inv (congrArg Evaluation.action same).symm listing buckets form
    exact method (requestName_method verb named bucketless given listed)
  have unlike : (⟨action, bucket, key⟩ : Evaluation) ≠ request.bypassEvaluation :=
    fun same => passing (congrArg Evaluation.action same)
  intro inside
  cases judged with
  | form => cases inside
  | own => exact own (List.mem_singleton.mp inside)
  | bypass =>
    obtain same | rest := List.mem_cons.mp inside
    · exact own same
    · exact unlike (List.mem_singleton.mp rest)

theorem Judged.bypass_mem {evaluated : List Evaluation} (judged : Judged request evaluated)
    (own : request.ownEvaluation ∈ evaluated) (method : request.method = .delete)
    (action : request.ownEvaluation.action = "DeleteObject")
    (header : request.bypassGovernance = true) : request.bypassEvaluation ∈ evaluated := by
  have named := s3ActionName_inv action (by decide) (by decide) (by decide)
  cases judged with
  | form => cases own
  | own plain =>
    rw [plain method named] at header
    cases header
  | bypass => exact List.mem_cons_of_mem _ (List.mem_singleton.mpr rfl)

end Reading

/-- What a deletion touches: nothing, its object, or its object with a retention. -/
inductive DeletionShape (bucket key : String) (bypass : Bool) (touched : List Access) : Prop
  | nothing (none : touched = [])
  | deleted (one : touched = [.removal "DeleteObject" bucket key])
  | passedOver (two : touched = [.removal "DeleteObject" bucket key, .bypass bucket key])
      (header : bypass = true)

namespace Answers

variable (answers : Answers)

theorem deletion_shape (n : Nat) (bucket key : String) (version : Option VersionIdArg) (bypass : Bool) :
    DeletionShape bucket key bypass (answers.deletion n bucket key version bypass) := by
  rw [deletion]
  cases done : answers.delete n bucket key (version.map VersionIdArg.toVk) bypass with
  | none => exact .nothing rfl
  | some passing =>
    cases passing with
    | false => exact .deleted rfl
    | true => exact .passedOver rfl (answers.honoured _ _ _ _ _ done)

theorem deleteObject_shape (op : Operation) (bucket key : String) (version : Option VersionIdArg)
    (bypass : Bool) :
    DeletionShape bucket key bypass (answers.deleteObject op bucket key version bypass) := by
  rw [deleteObject]
  cases answers.versioning bucket with
  | none => exact .nothing rfl
  | some state =>
    dsimp only
    split
    · exact answers.deletion_shape 0 bucket key version bypass
    · exact .nothing rfl

theorem deletion_removal {n : Nat} {bucket key : String} {version : Option VersionIdArg}
    {bypass : Bool} (filled : answers.deletion n bucket key version bypass ≠ []) :
    .removal "DeleteObject" bucket key ∈ answers.deletion n bucket key version bypass := by
  cases answers.deletion_shape n bucket key version bypass with
  | nothing none => exact absurd none filled
  | deleted one => rw [one]; exact List.mem_cons_self
  | passedOver two => rw [two]; exact List.mem_cons_self

theorem deleteEntries_removal {bucket : String} {state : Core.VersioningState} {bypass : Bool}
    {keys : List DeleteObjectEntry} {n : Nat}
    (filled : answers.deleteEntries bucket state bypass n keys ≠ []) :
    ∃ key, .removal "DeleteObject" bucket key ∈ answers.deleteEntries bucket state bypass n keys := by
  induction keys generalizing n with
  | nil => exact absurd rfl filled
  | cons entry rest ih =>
    rw [deleteEntries] at filled ⊢
    cases named : parseVersionIdParam entry.versionId with
    | error e =>
      rw [named] at filled
      exact ih filled
    | ok version =>
      rw [named] at filled
      dsimp only at filled ⊢
      split at filled
      · next reached =>
          rw [if_pos reached]
          cases checked : answers.entryCheck n entry with
          | stop => rw [checked] at filled; exact absurd rfl filled
          | skip => rw [checked] at filled; exact ih filled
          | pass =>
            rw [checked] at filled
            dsimp only at filled ⊢
            by_cases idle : answers.deletion n bucket entry.key version bypass = []
            · rw [idle, List.nil_append] at filled ⊢
              exact ih filled
            · exact ⟨entry.key, List.mem_append_left _ (answers.deletion_removal idle)⟩
      · next reached =>
          rw [if_neg reached]
          exact ih filled

theorem deleteObjects_removal (bucket : String) (keys : List DeleteObjectEntry) (bypass : Bool)
    (filled : answers.deleteObjects bucket keys bypass ≠ []) :
    ∃ key, .removal "DeleteObject" bucket key ∈ answers.deleteObjects bucket keys bypass := by
  rw [deleteObjects] at filled ⊢
  cases found : answers.versioning bucket with
  | none => rw [found] at filled; exact absurd rfl filled
  | some state =>
    rw [found] at filled
    dsimp only at filled ⊢
    split at filled
    · exact absurd rfl filled
    · next few =>
        rw [if_neg few]
        exact answers.deleteEntries_removal filled

end Answers

section Covered

variable {front : Front} {request : S3Request} {evaluated : List Evaluation} {answers : Answers}

/-- What the operation touches was evaluated exactly if it is covered. -/
def Settles (front : Front) (answers : Answers) (request : S3Request) (evaluated : List Evaluation)
    (op : Operation) : Prop :=
  (∀ access ∈ answers.accesses request op, access.Mediated answers op evaluated) ↔
    answers.Covered front request op

theorem mediated_guarded {op : Operation} {condition own : Prop} [Decidable condition]
    {accesses : List Access}
    (inner : condition → ((∀ touched ∈ accesses, touched.Mediated answers op evaluated) ↔ own)) :
    (∀ touched ∈ (if condition then accesses else []), touched.Mediated answers op evaluated) ↔
      (condition → own) := by
  split
  · next reached => rw [forall_prop_of_true reached, inner reached]
  · next reached =>
      exact iff_of_true (fun access inside => nomatch inside) fun holds => absurd holds reached

theorem mediated_ite {op : Operation} {condition : Prop} [Decidable condition] {access : Access} :
    (∀ touched ∈ (if condition then [access] else []), touched.Mediated answers op evaluated) ↔
      (condition → access.Mediated answers op evaluated) :=
  mediated_guarded fun _ => List.forall_mem_singleton

theorem mediated_append {op : Operation} {left right : List Access} :
    (∀ touched ∈ left ++ right, touched.Mediated answers op evaluated) ↔
      (∀ touched ∈ left, touched.Mediated answers op evaluated) ∧
        ∀ touched ∈ right, touched.Mediated answers op evaluated :=
  List.forall_mem_append

theorem touched_mediated {op : Operation} (judged : Judged request evaluated)
    (reading : Reading front request op) (elsewhere : op.placed .post true = false) (id : String) :
    (∀ touched ∈ answers.touched id, touched.Mediated answers op evaluated) ↔
      ((answers.upload id).isSome = true → answers.upload id = some ⟨op.bucket, op.key⟩ ∧
        front.router.virtualBucket front.std request.host = none) := by
  rw [Answers.touched, mediated_ite, Access.Mediated, target_mem_iff judged reading elsewhere]

variable (judged : Judged request evaluated)

include judged

variable {version : Option VersionIdArg} {number : Nat} {id : String}

theorem getObject_covered {bucket key : String}
    (reading : Reading front request (.getObject bucket key version)) :
    Settles front answers request evaluated (.getObject bucket key version) := by
  unfold Settles Answers.accesses Answers.Covered
  dsimp only
  rw [mediated_ite, Access.Mediated]
  exact imp_congr_right fun _ => own_mem_iff judged reading rfl

theorem getObjectPart_covered {bucket key : String}
    (reading : Reading front request (.getObjectPart bucket key number)) :
    Settles front answers request evaluated (.getObjectPart bucket key number) := by
  unfold Settles Answers.accesses Answers.Covered
  dsimp only
  rw [mediated_ite, Access.Mediated]
  exact imp_congr_right fun _ => own_mem_iff judged reading rfl

theorem putObject_covered {bucket key : String}
    (reading : Reading front request (.putObject bucket key)) :
    Settles front answers request evaluated (.putObject bucket key) := by
  unfold Settles Answers.accesses Answers.Covered
  dsimp only
  rw [mediated_ite, Access.Mediated]
  exact imp_congr_right fun _ => own_mem_iff judged reading rfl

theorem uploadPart_covered {bucket key : String}
    (reading : Reading front request (.uploadPart bucket key number id)) :
    Settles front answers request evaluated (.uploadPart bucket key number id) := by
  unfold Settles Answers.accesses Answers.Covered
  dsimp only
  exact mediated_guarded fun _ => touched_mediated judged reading rfl id

theorem abortMultipartUpload_covered {bucket key : String}
    (reading : Reading front request (.abortMultipartUpload bucket key id)) :
    Settles front answers request evaluated (.abortMultipartUpload bucket key id) := by
  unfold Settles Answers.accesses Answers.Covered
  dsimp only
  exact touched_mediated judged reading rfl id

theorem listParts_covered {bucket key : String} {marker : Option Nat} {count : Nat}
    (reading : Reading front request (.listParts bucket key id marker count)) :
    Settles front answers request evaluated (.listParts bucket key id marker count) := by
  unfold Settles Answers.accesses Answers.Covered
  dsimp only
  exact mediated_guarded fun _ => touched_mediated judged reading rfl id

theorem createMultipartUpload_covered {bucket key : String}
    (reading : Reading front request (.createMultipartUpload bucket key)) :
    Settles front answers request evaluated (.createMultipartUpload bucket key) := by
  unfold Settles Answers.accesses Answers.Covered
  dsimp only
  refine mediated_guarded fun _ => ?_
  rw [List.forall_mem_map]
  refine forall₂_congr fun id _ => ?_
  rw [Access.Mediated, target_mem_iff judged reading rfl]

theorem completeMultipartUpload_covered {bucket key : String} {parts : List CompletePart}
    (reading : Reading front request (.completeMultipartUpload bucket key id parts)) :
    Settles front answers request evaluated (.completeMultipartUpload bucket key id parts) := by
  unfold Settles Answers.accesses Answers.Covered
  dsimp only
  rw [Answers.completeMultipartUpload]
  refine mediated_guarded fun _ => ?_
  rw [mediated_append, touched_mediated judged reading rfl, mediated_ite, Access.Mediated]
  exact and_congr_right fun _ => imp_congr_right fun _ => own_mem_iff judged reading rfl

theorem content_not_mem (method : request.method = .put) (bucket key : String) :
    ⟨"GetObject", bucket, key⟩ ∉ evaluated :=
  judged.not_mem .get (by decide) (by decide) (by decide) (by decide) (by decide) (by decide)
    (by decide) (by rw [method]; decide) bucket key

theorem uploadPartCopy_covered {bucket key : String} {source : CopySource} {range : Option String}
    (reading : Reading front request (.uploadPartCopy bucket key number id source range)) :
    Settles front answers request evaluated (.uploadPartCopy bucket key number id source range) := by
  have method : request.method = .put := by
    refine reading.method fun method onBucket placed => ?_
    simp only [Operation.placed, Bool.and_eq_true, decide_eq_true_eq] at placed
    exact placed.1
  have absent := content_not_mem judged method source.bucket source.key
  unfold Settles Answers.accesses Answers.Covered
  dsimp only
  rw [Answers.uploadPartCopy]
  refine mediated_guarded fun _ => ?_
  rw [mediated_append, touched_mediated judged reading rfl, mediated_ite, Access.Mediated, and_comm]
  refine and_congr_left fun _ => ?_
  simp only [absent, imp_false, not_and, Bool.not_eq_true]

omit judged in
theorem source_mediated {op : Operation} {marker : Bool} {bucket key : String}
    (absent : ⟨"GetObject", bucket, key⟩ ∉ evaluated) :
    (∀ touched ∈ (if marker then [] else [Access.content bucket key]),
      touched.Mediated answers op evaluated) ↔ marker = true := by
  cases marker with
  | true => exact iff_of_true (fun touched inside => nomatch inside) rfl
  | false =>
    refine iff_of_false (fun all => absent ?_) Bool.false_ne_true
    exact all (.content bucket key) (List.mem_singleton.mpr rfl)

theorem copyObject_covered {bucket key : String} {source : CopySource}
    {directive ifMatch ifNoneMatch ifUnmodified ifModified : Option String}
    (reading : Reading front request (.copyObject bucket key source directive ifMatch ifNoneMatch
      ifUnmodified ifModified)) :
    Settles front answers request evaluated (.copyObject bucket key source directive ifMatch
      ifNoneMatch ifUnmodified ifModified) := by
  have method : request.method = .put := by
    refine reading.method fun method onBucket placed => ?_
    simp only [Operation.placed, Bool.and_eq_true, decide_eq_true_eq] at placed
    exact placed.1
  have absent := content_not_mem judged method source.bucket source.key
  unfold Settles Answers.accesses Answers.Covered
  dsimp only
  rw [Answers.copyObject]
  cases found : answers.copySourceMarker bucket key source directive with
  | none => exact iff_of_true (fun access inside => nomatch inside) fun _ marker same => nomatch same
  | some marker =>
    refine mediated_guarded fun _ => ?_
    have second := own_mem_iff judged reading rfl
    rw [mediated_append, source_mediated absent, mediated_ite, Access.Mediated]
    constructor
    · intro both other same
      cases same
      exact ⟨both.1, fun replaced => second.mp (both.2 replaced)⟩
    · intro both
      obtain ⟨marked, own⟩ := both marker rfl
      exact ⟨marked, fun replaced => second.mpr (own replaced)⟩

theorem bypass_covered {bucket key : String}
    (reading : Reading front request (.deleteObject bucket key version))
    (member : ⟨"DeleteObject", bucket, key⟩ ∈ evaluated) (method : request.method = .delete)
    (header : request.bypassGovernance = true) :
    ⟨"BypassGovernanceRetention", bucket, key⟩ ∈ evaluated := by
  have held := (own_mem_iff judged reading rfl).mp member
  cases reading with
  | apart virtual => exact absurd held.1 virtual
  | same _ _ sameBucket sameKey action =>
    have named : request.ownEvaluation.action = "DeleteObject" := action.mpr held.2
    have own : request.ownEvaluation = ⟨"DeleteObject", bucket, key⟩ := by
      rw [show bucket = _ from sameBucket, show key = _ from sameKey, ← named]
    have passing : request.bypassEvaluation = ⟨"BypassGovernanceRetention", bucket, key⟩ := by
      rw [show bucket = _ from sameBucket, show key = _ from sameKey]
      rfl
    rw [← passing]
    rw [← own] at member
    exact judged.bypass_mem member method (congrArg Evaluation.action own) header

theorem deleteObject_covered {bucket key : String}
    (reading : Reading front request (.deleteObject bucket key version)) :
    Settles front answers request evaluated (.deleteObject bucket key version) := by
  have method : request.method = .delete := by
    refine reading.method fun method onBucket placed => ?_
    simp only [Operation.placed, Operation.fits, Bool.and_eq_true, decide_eq_true_eq] at placed
    exact placed.1
  have own := own_mem_iff judged reading rfl
  unfold Settles Answers.accesses Answers.Covered
  dsimp only
  cases answers.deleteObject_shape (.deleteObject bucket key version) bucket key version
      request.bypassGovernance with
  | nothing none =>
    rw [none]
    exact iff_of_true (fun access inside => nomatch inside) fun filled => absurd rfl filled
  | deleted one =>
    rw [one, List.forall_mem_singleton, Access.Mediated, forall_prop_of_true (List.cons_ne_nil _ _)]
    exact own
  | passedOver two header =>
    rw [two, List.forall_mem_cons, List.forall_mem_singleton, Access.Mediated, Access.Mediated,
      forall_prop_of_true (List.cons_ne_nil _ _)]
    constructor
    · exact fun both => own.mp both.1
    · intro held
      have member := own.mpr held
      exact ⟨member, bypass_covered judged reading member method header⟩

theorem deleteObjects_covered {bucket : String} {quiet : Bool} {keys : List DeleteObjectEntry}
    (reading : Reading front request (.deleteObjects bucket quiet keys)) :
    Settles front answers request evaluated (.deleteObjects bucket quiet keys) := by
  have method : request.method = .post := by
    refine reading.method fun method onBucket placed => ?_
    simp only [Operation.placed, Operation.fits, Bool.and_eq_true, decide_eq_true_eq] at placed
    exact placed.1
  have absent (key : String) : ⟨"DeleteObject", bucket, key⟩ ∉ evaluated :=
    judged.not_mem .delete (by decide) (by decide) (by decide) (by decide) (by decide) (by decide)
      (by decide) (by rw [method]; decide) bucket key
  unfold Settles Answers.accesses Answers.Covered
  dsimp only
  constructor
  · intro all
    by_contra filled
    obtain ⟨key, inside⟩ := answers.deleteObjects_removal bucket keys request.bypassGovernance filled
    exact absent key (all _ inside)
  · intro none access inside
    rw [none] at inside
    cases inside

theorem operation_covered {op : Operation} (reading : Reading front request op) :
    Settles front answers request evaluated op := by
  cases op with
  | getObject bucket key version => exact getObject_covered judged reading
  | getObjectPart bucket key number => exact getObjectPart_covered judged reading
  | putObject bucket key => exact putObject_covered judged reading
  | copyObject => exact copyObject_covered judged reading
  | uploadPart => exact uploadPart_covered judged reading
  | uploadPartCopy => exact uploadPartCopy_covered judged reading
  | completeMultipartUpload => exact completeMultipartUpload_covered judged reading
  | abortMultipartUpload => exact abortMultipartUpload_covered judged reading
  | listParts => exact listParts_covered judged reading
  | createMultipartUpload => exact createMultipartUpload_covered judged reading
  | deleteObject => exact deleteObject_covered judged reading
  | deleteObjects => exact deleteObjects_covered judged reading
  | _ => exact iff_of_true (fun access inside => nomatch inside) trivial

end Covered

section Requests

variable {service : S3Service} {around : Surroundings} {rows : Store} {front : Front}
  {answers : Answers} {request : S3Request} {run : Run}

theorem postObject_mediated {op : Operation} {bucket : String} {own : Evaluation}
    {written : List Access} {evaluated : List Evaluation}
    (done : service.postObject around front answers request op bucket = .ok (own, written)) :
    ∀ access ∈ written, access.Mediated answers op (evaluated ++ [own]) := by
  rw [S3Service.postObject] at done
  obtain ⟨⟨key, identity⟩, -, done⟩ := bind_ok done
  obtain ⟨-, -, done⟩ := bind_ok done
  cases done
  rw [mediated_ite]
  exact fun _ => List.mem_append_right _ (List.mem_singleton.mpr rfl)

theorem handle_mediated_iff
    (ran : service.handle around rows front answers request = .ok run) :
    run.Mediated answers ↔ answers.Covered front request run.op := by
  rw [S3Service.handle] at ran
  obtain ⟨evaluated, allowed, ran⟩ := bind_ok ran
  obtain ⟨-, -, ran⟩ := bind_ok ran
  obtain ⟨op, routed, ran⟩ := bind_ok ran
  have reading := operation_reading routed
  have judged := evaluate_judged allowed
  by_cases form : ∃ bucket, op = .postObject bucket
  · obtain ⟨bucket, rfl⟩ := form
    obtain ⟨-, -, ran⟩ := bind_ok ran
    obtain ⟨⟨own, written⟩, done, ran⟩ := bind_ok ran
    cases ran
    exact iff_of_true (postObject_mediated done) trivial
  · have plain : (do
        service.requireAuth around rows front answers request
        refuse (front.refusal request op)
        return (⟨op, evaluated, answers.accesses request op⟩ : Run)) = .ok run := by
      cases op with
      | postObject bucket => exact absurd ⟨bucket, rfl⟩ form
      | _ => exact ran
    obtain ⟨-, -, plain⟩ := bind_ok plain
    obtain ⟨-, -, plain⟩ := bind_ok plain
    cases plain
    exact operation_covered judged reading

theorem putObjectStream_mediated_iff
    (ran : service.putObjectStream around rows front answers request = .ok run) :
    run.Mediated answers ↔ answers.Covered front request run.op := by
  rw [S3Service.putObjectStream] at ran
  obtain ⟨evaluated, allowed, ran⟩ := bind_ok ran
  obtain ⟨-, -, ran⟩ := bind_ok ran
  obtain ⟨op, routed, ran⟩ := bind_ok ran
  have judged := authorizeRequest_judged allowed
  have reading := route_reading routed
  split at ran
  · obtain ⟨-, -, ran⟩ := bind_ok ran
    obtain ⟨-, -, ran⟩ := bind_ok ran
    obtain ⟨-, -, ran⟩ := bind_ok ran
    cases ran
    exact operation_covered judged reading
  · obtain ⟨-, -, ran⟩ := bind_ok ran
    obtain ⟨-, -, ran⟩ := bind_ok ran
    obtain ⟨-, -, ran⟩ := bind_ok ran
    cases ran
    exact operation_covered judged reading
  · cases ran

def plainPut (path : String) (headers : List (String × String)) : S3Request where
  method := .put
  path := path
  host := "s3.example.com"
  query := []
  headers := headers
  body := []

def mineWriter : Policy :=
  ⟨[⟨.allow, none, ["s3:putobject"], ["arn:aws:s3:::mine/*"], [], by decide⟩]⟩

def writerService : S3Service where
  keyTable := [⟨"AK", "secret"⟩]
  policies accessKey := if accessKey = "AK" then some (some mineWriter) else none
  keyOwners _ := none
  embeddedPolicies _ := none
  iamUsers _ := none
  iamGroups _ := none
  iamPolicies _ := none
  tenants _ := none

def plainAround : Surroundings where
  now := 0
  parsePolicy _ := none
  deriveSecret secret _ := secret
  hashSecret secret := secret
  bucketPolicy _ := none
  bucketOwner _ := none

example : writerService.authorize plainAround (some ⟨"AK", none⟩) ⟨"GetObject", "secret", "k", {}⟩ ≠
    .ok () := by
  decide +kernel

def secretSource : Xml :=
  { bodiless with parseCopySource := fun raw =>
      if raw = "/secret/k" then .ok ⟨"secret", "k", none⟩ else bodiless.parseCopySource raw }

def plainFront : Front where
  router := Router.new ["s3.example.com"]
  std := plainHosts
  xml := secretSource
  presented _ := ⟨none, some "AK", some ⟨"AK", none, fun _ => none⟩, none⟩
  replDcredIn _ := none
  policyContext _ _ _ := {}
  allowAnonymous := false
  restrictsPublic _ := false
  postForm _ := .error ⟨.invalidArgument, "no form"⟩
  unwritable _ := none
  refusal _ _ := none

def plainAnswers : Answers where
  versioning _ := some .off
  upload _ := none
  deletionMarker _ _ _ := some false
  accepts _ := true
  replaces _ := false
  expired := []
  entryCheck _ _ := .pass
  delete _ _ _ _ _ := none
  honoured _ _ _ _ _ done := nomatch done

def copyRun (op : Operation) (accesses : List Access) : Run :=
  ⟨op, [⟨"PutObject", "mine", "x"⟩], accesses⟩

def copyOfSecret : Operation :=
  .copyObject "mine" "x" ⟨"secret", "k", none⟩ none none none none none

end Requests

end FastS3.S3
