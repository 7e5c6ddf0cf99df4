import FastS3.S3.Mediation

namespace FastS3.S3

open Meta (Store)

/-! What a delegated credential is good for: reading the buckets that it was handed out for. -/

/-- A request that was executed stays within a delegated credential. -/
structure Run.Confined (cred : DelegatedCred) (request : S3Request) (run : Run) : Prop where
  reads : request.method = .get ∨ request.method = .head
  inside : cred.filters.allowsBucket run.op.bucket = true

def S3Service.ComesFrom (service : S3Service) (around : Surroundings) (rows : Store) (front : Front)
    (request : S3Request) (cred : DelegatedCred) : Prop :=
  (service.identified around rows front request).bind (fun identity => front.delegatedCred identity.who) =
    some cred

instance (service : S3Service) (around : Surroundings) (rows : Store) (front : Front)
    (request : S3Request) (cred : DelegatedCred) :
    Decidable (service.ComesFrom around rows front request cred) :=
  inferInstanceAs (Decidable (_ = some cred))

section Bucket

variable {front : Front} {request : S3Request} {op : Operation}

theorem route_virtualBucket {bucket : String}
    (virtual : front.router.virtualBucket front.std request.host = some bucket)
    (routed : front.router.route front.std front.xml request.method request.host request.path
      request.query request.body = .ok op) : op.bucket = bucket := by
  rw [Router.route, Router.bucketOf, virtual] at routed
  simp only [Option.orElse_some] at routed
  split at routed
  · exact (routeBucket_told routed).bucket
  · exact (routeObject_told routed).bucket

theorem operation_virtualBucket {bucket : String}
    (virtual : front.router.virtualBucket front.std request.host = some bucket)
    (routed : front.router.operation front.std front.xml request = .ok op) : op.bucket = bucket := by
  obtain ⟨first, routed, same, -, -⟩ := operation_route routed
  exact same.trans (route_virtualBucket virtual routed)

theorem operation_pathBucket (pathStyle : front.router.virtualBucket front.std request.host = none)
    (routed : front.router.operation front.std front.xml request = .ok op) :
    op.bucket = (routeOpBucketKey request).2.2.1 := by
  cases operation_reading routed with
  | same _ _ bucket _ _ => exact bucket
  | apart virtual _ _ => exact absurd pathStyle virtual

end Bucket

section Confined

variable {service : S3Service} {around : Surroundings} {rows : Store} {front : Front}
  {answers : Answers} {request : S3Request} {cred : DelegatedCred} {run : Run}

theorem evaluate_delegated {auth : Option AuthIdentity} {evaluated : List Evaluation}
    (delegated : auth.bind (fun identity => front.delegatedCred identity.who) = some cred)
    (allowed : service.evaluate around front request auth = .ok evaluated) :
    (request.method = .get ∨ request.method = .head) ∧
      cred.filters.allowsBucket (routeOpBucketKey request).2.2.1 = true := by
  simp only [S3Service.evaluate, delegated] at allowed
  split at allowed
  · next inside => exact ⟨inside.1, inside.2.2⟩
  · cases allowed

theorem handle_evaluated (ran : service.handle around rows front answers request = .ok run) :
    (∃ evaluated, service.evaluate around front request
        (service.identified around rows front request) = .ok evaluated) ∧
      front.router.operation front.std front.xml request = .ok run.op := by
  rw [S3Service.handle] at ran
  obtain ⟨evaluated, allowed, ran⟩ := bind_ok ran
  obtain ⟨-, -, ran⟩ := bind_ok ran
  obtain ⟨op, routed, ran⟩ := bind_ok ran
  have same : run.op = op := by
    split at ran
    · obtain ⟨-, -, ran⟩ := bind_ok ran
      obtain ⟨⟨own, written⟩, -, ran⟩ := bind_ok ran
      cases ran
      rfl
    · obtain ⟨-, -, ran⟩ := bind_ok ran
      obtain ⟨-, -, ran⟩ := bind_ok ran
      cases ran
      rfl
  rw [same]
  exact ⟨⟨evaluated, allowed⟩, routed⟩

theorem handle_confined_iff
    (comes : service.ComesFrom around rows front request cred)
    (ran : service.handle around rows front answers request = .ok run) :
    run.Confined cred request ↔ ∀ bucket,
      front.router.virtualBucket front.std request.host = some bucket →
        cred.filters.allowsBucket bucket = true := by
  obtain ⟨⟨evaluated, allowed⟩, routed⟩ := handle_evaluated ran
  obtain ⟨reads, inside⟩ := evaluate_delegated comes allowed
  constructor
  · intro confined bucket virtual
    rw [← operation_virtualBucket virtual routed]
    exact confined.inside
  · intro all
    refine ⟨reads, ?_⟩
    cases virtual : front.router.virtualBucket front.std request.host with
    | none =>
      rw [operation_pathBucket virtual routed]
      exact inside
    | some bucket =>
      rw [operation_virtualBucket virtual routed]
      exact all bucket virtual

theorem putObjectStream_method
    (ran : service.putObjectStream around rows front answers request = .ok run) :
    request.method = .put := by
  rw [S3Service.putObjectStream] at ran
  obtain ⟨evaluated, -, ran⟩ := bind_ok ran
  obtain ⟨-, -, ran⟩ := bind_ok ran
  obtain ⟨op, routed, ran⟩ := bind_ok ran
  have reading := route_reading routed
  split at ran
  · refine reading.method fun method onBucket placed => ?_
    simp only [Operation.placed, Operation.fits, Bool.and_eq_true, decide_eq_true_eq] at placed
    exact placed.1
  · refine reading.method fun method onBucket placed => ?_
    simp only [Operation.placed, Operation.fits, Bool.and_eq_true, decide_eq_true_eq] at placed
    exact placed.1
  · cases ran

/-- A request of a delegated credential stays within it when it does not come as a stream and its host is
not the one of another bucket, and only then. -/
theorem delegated_confined_iff (service : S3Service) (around : Surroundings) (rows : Store)
    (front : Front) (answers : Answers) (request : S3Request) (cred : DelegatedCred) (run : Run)
    (entry : EntryPoint) (comes : service.ComesFrom around rows front request cred)
    (ran : service.enter around rows front answers request entry = .ok run) :
    run.Confined cred request ↔ entry = .handle ∧ ∀ bucket,
      front.router.virtualBucket front.std request.host = some bucket →
        cred.filters.allowsBucket bucket = true := by
  cases entry with
  | handle =>
    rw [handle_confined_iff comes ran]
    exact ⟨fun all => ⟨rfl, all⟩, fun both => both.2⟩
  | stream =>
    refine iff_of_false (fun confined => ?_) fun both => nomatch both.1
    have put := putObjectStream_method ran
    obtain get | head := confined.reads
    · rw [put] at get
      cases get
    · rw [put] at head
      cases head

end Confined

/-! A replica for one bucket, and a request for another one. -/

def replicaCred : DelegatedCred :=
  ⟨"REPL-s1", "secret", .include ["b1"]⟩

def replicaFront : Front :=
  { plainFront with
    presented := fun _ => ⟨none, some "REPL-s1", some ⟨"REPL-s1", none, fun _ => none⟩, none⟩
    replDcredIn := fun slot => if slot = "s1" then some replicaCred else none }

theorem replica_read_confined :
    (Run.mk (.getObject "b1" "x" none) [⟨"GetObject", "b1", "x"⟩] [.content "b1" "x"]).Confined
        replicaCred (plainGet "s3.example.com" "/b1/x" []) ↔
      EntryPoint.handle = .handle ∧ ∀ bucket,
        replicaFront.router.virtualBucket replicaFront.std "s3.example.com" = some bucket →
          replicaCred.filters.allowsBucket bucket = true :=
  delegated_confined_iff writerService plainAround Store.empty replicaFront plainAnswers
    (plainGet "s3.example.com" "/b1/x" []) replicaCred _ .handle (by decide +kernel)
    (by decide +kernel)

/-- Another bucket is read under its host, with a path that begins with the replica's bucket. -/
theorem replica_reads_other_bucket :
    ¬∀ (service : S3Service) (around : Surroundings) (rows : Store) (front : Front)
      (answers : Answers) (request : S3Request) (cred : DelegatedCred) (run : Run)
      (entry : EntryPoint), service.ComesFrom around rows front request cred →
        service.enter around rows front answers request entry = .ok run →
          run.Confined cred request := by
  intro all
  have comes : writerService.ComesFrom plainAround Store.empty replicaFront
      (plainGet "b2.s3.example.com" "/b1/x" []) replicaCred := by
    decide +kernel
  have ran : writerService.enter plainAround Store.empty replicaFront plainAnswers
      (plainGet "b2.s3.example.com" "/b1/x" []) .handle =
        .ok ⟨.getObject "b2" "b1/x" none, [⟨"GetObject", "b1", "x"⟩], [.content "b2" "b1/x"]⟩ := by
    decide +kernel
  have inside := (all _ _ _ _ _ _ _ _ _ comes ran).inside
  exact absurd inside (by decide)

end FastS3.S3
