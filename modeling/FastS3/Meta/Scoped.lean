import FastS3.Meta.Applied

namespace FastS3.Meta

open FastS3.Core Data

/-! A replica behind a bucket filter against its primary.

Operations that name a bucket are filtered, the others are always sent.  A sent
operation that reads a row which a dropped one wrote does not apply.
-/

def shared (filters : BucketFilter) : Key → Bool
  | .bucket b | .location b | .conf _ b | .lifecycleRules b | .notificationRules b
  | .inventoryRules b | .object b _ _ | .sessionIndex b _ => filters.allowsBucket b
  | .part _ _ | .stsSession _ | .batchJob _ | .accessKeys | .tenant _ | .iamUsers _
  | .iamGroups _ | .iamPolicies _ | .iamRoles _ | .sseKekSeed | .sseKekGen => true
  | _ => false

/-- Of the sessions, the replica holds those of the buckets it receives. -/
structure Mirrors (filters : BucketFilter) (primary standby : Store) : Prop where
  rows : ∀ key, shared filters key = true → primary key = standby key
  sessions : ∀ uploadId, standby (.session uploadId) =
    (primary (.session uploadId)).filter fun session => filters.allowsBucket session.bucket

def Op.plain : Op → Bool
  | .eventEnqueue _ | .eventMarkDead _ | .eventDelete _ | .restoreJobPut _ | .restoreJobDelete _
  | .ingestJobPut _ | .ingestJobDelete _ | .alloc _ | .multipartCreate _ _
  | .multipartUpdate _ _ _ _ _ | .multipartDelete _ | .partPut _ _ _ => false
  | _ => true

/-- A sent operation finds what it reads: the upload it names is one of a bucket that
the replica receives, the rewritten record too, and the event is still queued.  A
dropped upload does not take the place of a sent one. -/
def Op.Admitted (filters : BucketFilter) (primary standby : Store) : Op → Prop
  | .partPut uploadId _ _ | .multipartUpdate uploadId _ _ _ _ | .multipartDelete uploadId =>
    ∀ session, primary (.session uploadId) = some session →
      filters.allowsBucket session.bucket = true
  | .multipartCreate uploadId session =>
    filters.allowsBucket session.bucket = true ∨
      ∀ old, primary (.session uploadId) = some old → filters.allowsBucket old.bucket = false
  | .objectMetaRewrite bucket _ _ _ => filters.allowsBucket bucket = true
  | .eventMarkDead seq => ((standby .events).get? seq).isSome = true
  | _ => True

section Step

variable {filters : BucketFilter} {seq : Nat} {op : Op} {primary standby after : Store}

theorem touches_shared (plain : op.plain = true) (sent : filters.keeps op = true)
    (admitted : op.Admitted filters primary standby) {key : Key} (touched : op.touches seq key) :
    shared filters key = true := by
  cases op <;> simp only [Op.plain, reduceCtorEq, BucketFilter.keeps, opBucket, Op.touches,
    Op.Admitted] at plain sent admitted touched <;> grind [shared]

theorem touches_filtered (plain : op.plain = true) (dropped : filters.keeps op = false) {key : Key}
    (touched : op.touches seq key) : shared filters key = false := by
  cases op <;> simp only [Op.plain, reduceCtorEq, BucketFilter.keeps, opBucket, Op.touches]
    at plain dropped touched <;> grind [shared]

theorem not_touches_session (plain : op.plain = true) {uploadId : String} :
    ¬ op.touches seq (.session uploadId) := by
  intro touched
  cases op <;> simp only [Op.plain, reduceCtorEq, Op.touches] at plain touched <;> grind

theorem applyOp_replay {result : Unit × Store} (notAlloc : ∀ draft, op ≠ .alloc draft)
    (run : applyOp false seq op primary = .ok result) :
    applyOp true seq op primary = .ok result := by
  cases op with
  | alloc draft => exact absurd rfl (notAlloc draft)
  | objectMigrate | partMigrate =>
    obtain ⟨found, start, read, rest⟩ := Tx.bind_eq_ok.mp run
    apply Tx.bind_eq_ok.mpr ⟨found, start, read, ?_⟩
    cases found with
    | none => exact rest
    | some found =>
      dsimp only at rest ⊢
      split at rest
      · exact absurd rest Tx.throw_ne_ok
      · next sameLength =>
          split at rest
          · exact absurd rest Tx.throw_ne_ok
          · rw [if_neg sameLength, if_neg fun both => Bool.noConfusion both.2]
            exact rest
  | _ => exact run

theorem Mirrors.of_frame (mirrors : Mirrors filters primary standby)
    (frame : ∀ key, shared filters key = true ∨ (∃ uploadId, key = .session uploadId) →
      after key = primary key) : Mirrors filters after standby where
  rows := by
    intro key held
    rw [frame key (.inl held)]
    exact mirrors.rows key held
  sessions := by
    intro uploadId
    rw [frame _ (.inr ⟨uploadId, rfl⟩)]
    exact mirrors.sessions uploadId

theorem Mirrors.of_standby_frame {next : Store} (mirrors : Mirrors filters primary standby)
    (frame : ∀ key, shared filters key = true ∨ (∃ uploadId, key = .session uploadId) →
      next key = standby key) : Mirrors filters primary next where
  rows := by
    intro key held
    rw [frame key (.inl held)]
    exact mirrors.rows key held
  sessions := by
    intro uploadId
    rw [frame _ (.inr ⟨uploadId, rfl⟩)]
    exact mirrors.sessions uploadId

theorem Mirrors.sent_plain (mirrors : Mirrors filters primary standby) (plain : op.plain = true)
    (sent : filters.keeps op = true) (admitted : op.Admitted filters primary standby)
    (run : applyOp false seq op primary = .ok ((), after)) :
    ∃ next, applyOp true seq op standby = .ok ((), next) ∧ Mirrors filters after next := by
  have replayed := applyOp_replay (fun draft same => by rw [same] at plain; cases plain) run
  have within : Within (fun key => shared filters key = true) (applyOp true seq op) :=
    (applyOp_within true seq op).of_subset fun key touched =>
      touches_shared plain sent admitted touched
  obtain ⟨next, ran, agreed⟩ := within.transfer mirrors.rows replayed
  refine ⟨next, ran, agreed, ?_⟩
  intro uploadId
  rw [(applyOp_within true seq op).frame ran _ (not_touches_session plain),
    (applyOp_within false seq op).frame run _ (not_touches_session plain)]
  exact mirrors.sessions uploadId

theorem Mirrors.dropped_plain (mirrors : Mirrors filters primary standby) (plain : op.plain = true)
    (dropped : filters.keeps op = false) (run : applyOp false seq op primary = .ok ((), after)) :
    Mirrors filters after standby := by
  apply mirrors.of_frame
  intro key held
  apply (applyOp_within false seq op).frame run
  intro touched
  rcases held with held | ⟨uploadId, rfl⟩
  · rw [touches_filtered plain dropped touched] at held
    cases held
  · exact not_touches_session plain touched

def Op.queues : Op → Bool
  | .eventEnqueue _ | .eventMarkDead _ | .eventDelete _ | .restoreJobPut _ | .restoreJobDelete _
  | .ingestJobPut _ | .ingestJobDelete _ | .alloc _ => true
  | _ => false

theorem queues_touches (queues : op.queues = true) {key : Key}
    (held : shared filters key = true ∨ ∃ uploadId, key = .session uploadId) :
    ¬ op.touches seq key := by
  intro touched
  cases op <;> simp only [Op.queues, reduceCtorEq, Op.touches] at queues touched <;> grind [shared]

theorem checked_succeeds {outcome : Except Error Unit} {key : Key} {value : Value key}
    (run : (do liftExcept outcome; tinsert key value) primary = .ok ((), after)) :
    ∃ next, (do liftExcept outcome; tinsert key value) standby = .ok ((), next) := by
  obtain ⟨_, _, valid, _⟩ := Tx.bind_eq_ok.mp run
  cases outcome with
  | error e => exact absurd valid Tx.throw_ne_ok
  | ok _ => exact ⟨_, rfl⟩

theorem queues_succeeds {replay : Bool} (queues : op.queues = true)
    (queued : ∀ target, op = .eventMarkDead target → ((standby .events).get? target).isSome = true)
    (run : applyOp replay seq op primary = .ok ((), after)) :
    ∃ next, applyOp true seq op standby = .ok ((), next) := by
  cases op with
  | eventEnqueue record => exact ⟨_, rfl⟩
  | eventDelete target => exact ⟨_, rfl⟩
  | restoreJobPut job => exact ⟨_, rfl⟩
  | restoreJobDelete target => exact ⟨_, rfl⟩
  | alloc draft => exact ⟨_, rfl⟩
  | ingestJobPut job => exact checked_succeeds run
  | ingestJobDelete id => exact checked_succeeds run
  | eventMarkDead target =>
    obtain ⟨record, found⟩ := Option.isSome_iff_exists.mp (queued target rfl)
    refine ⟨Function.update standby Key.events
      ((standby .events).insert target { record with dead := true }), ?_⟩
    apply Tx.bind_eq_ok.mpr ⟨standby .events, standby, rfl, ?_⟩
    rw [found]
    rfl
  | _ => cases queues

theorem Mirrors.queued (mirrors : Mirrors filters primary standby) (queues : op.queues = true)
    (admitted : op.Admitted filters primary standby)
    (run : applyOp false seq op primary = .ok ((), after)) :
    ∃ next, applyOp true seq op standby = .ok ((), next) ∧ Mirrors filters after next := by
  have queued : ∀ target, op = .eventMarkDead target →
      ((standby .events).get? target).isSome = true := by
    intro target same
    subst same
    exact admitted
  obtain ⟨next, ran⟩ := queues_succeeds queues queued run
  have kept : Mirrors filters after standby := mirrors.of_frame fun key held =>
    (applyOp_within false seq op).frame run key (queues_touches queues held)
  exact ⟨next, ran, kept.of_standby_frame fun key held =>
    (applyOp_within true seq op).frame ran key (queues_touches queues held)⟩

end Step

section Sessions

variable {filters : BucketFilter} {primary standby : Store}

theorem Mirrors.setSession (mirrors : Mirrors filters primary standby) (uploadId : String)
    (value : Option MultipartSession) :
    Mirrors filters (Function.update primary (.session uploadId) value)
      (Function.update standby (.session uploadId)
        (value.filter fun session => filters.allowsBucket session.bucket)) where
  rows := by
    intro key held
    have other : key ≠ .session uploadId := by
      intro same
      rw [same] at held
      cases held
    rw [Function.update_of_ne other, Function.update_of_ne other]
    exact mirrors.rows key held
  sessions := by
    intro id
    by_cases same : id = uploadId
    · subst same
      rw [Function.update_self, Function.update_self]
    · have other : Key.session id ≠ Key.session uploadId := fun equal => same (Key.session.inj equal)
      rw [Function.update_of_ne other, Function.update_of_ne other]
      exact mirrors.sessions id

theorem Mirrors.setRow (mirrors : Mirrors filters primary standby) (key : Key) (value : Value key)
    (other : ∀ uploadId, key ≠ .session uploadId) :
    Mirrors filters (Function.update primary key value) (Function.update standby key value) where
  rows := by
    intro row held
    by_cases same : row = key
    · subst same
      rw [Function.update_self, Function.update_self]
    · rw [Function.update_of_ne same, Function.update_of_ne same]
      exact mirrors.rows row held
  sessions := by
    intro uploadId
    rw [Function.update_of_ne (other uploadId).symm, Function.update_of_ne (other uploadId).symm]
    exact mirrors.sessions uploadId

theorem Mirrors.session (mirrors : Mirrors filters primary standby) {uploadId : String}
    {session : MultipartSession} (held : primary (.session uploadId) = some session)
    (sent : filters.allowsBucket session.bucket = true) :
    standby (.session uploadId) = some session := by
  rw [mirrors.sessions, held, Option.filter_some, if_pos sent]

theorem Mirrors.sent_multipartUpdate (mirrors : Mirrors filters primary standby) {seq : Nat}
    {uploadId : String} {completed : Bool} {finalEtag : Bytes} {finalSize : Nat} {finalMtime : Int}
    {after : Store}
    (admitted : ∀ session, primary (.session uploadId) = some session →
      filters.allowsBucket session.bucket = true)
    (run : applyOp false seq (.multipartUpdate uploadId completed finalEtag finalSize finalMtime)
      primary = .ok ((), after)) :
    ∃ next, applyOp true seq (.multipartUpdate uploadId completed finalEtag finalSize finalMtime)
      standby = .ok ((), next) ∧ Mirrors filters after next := by
  obtain ⟨session, start, required, rest⟩ := Tx.bind_eq_ok.mp run
  obtain ⟨held, rfl⟩ := requireSession_ok.mp required
  cases tinsert_eq_ok.mp rest
  have sent := admitted session held
  refine ⟨_, Tx.bind_eq_ok.mpr ⟨session, standby,
    requireSession_ok.mpr ⟨mirrors.session held sent, rfl⟩, rfl⟩, ?_⟩
  have set := mirrors.setSession uploadId
    (some { session with completed, finalEtag, finalSize, finalMtime })
  rw [Option.filter_some, if_pos sent] at set
  exact set

theorem Mirrors.sent_multipartDelete (mirrors : Mirrors filters primary standby) {seq : Nat}
    {uploadId : String} {after : Store}
    (admitted : ∀ session, primary (.session uploadId) = some session →
      filters.allowsBucket session.bucket = true)
    (run : applyOp false seq (.multipartDelete uploadId) primary = .ok ((), after)) :
    ∃ next, applyOp true seq (.multipartDelete uploadId) standby = .ok ((), next) ∧
      Mirrors filters after next := by
  obtain ⟨session, start, required, rest⟩ := Tx.bind_eq_ok.mp run
  obtain ⟨held, rfl⟩ := requireSession_ok.mp required
  obtain ⟨_, _, removed, rest⟩ := Tx.bind_eq_ok.mp rest
  cases tremove_eq_ok.mp removed
  cases tremove_eq_ok.mp rest
  refine ⟨_, Tx.bind_eq_ok.mpr ⟨session, standby,
    requireSession_ok.mpr ⟨mirrors.session held (admitted session held), rfl⟩, rfl⟩, ?_⟩
  exact (mirrors.setSession uploadId none).setRow (.sessionIndex session.bucket uploadId) none
    fun _ => Key.noConfusion

theorem Mirrors.sent_partPut (mirrors : Mirrors filters primary standby) {seq : Nat}
    {uploadId : String} {partNo : Nat} {value : PartMeta} {after : Store}
    (admitted : ∀ session, primary (.session uploadId) = some session →
      filters.allowsBucket session.bucket = true)
    (run : applyOp false seq (.partPut uploadId partNo value) primary = .ok ((), after)) :
    ∃ next, applyOp true seq (.partPut uploadId partNo value) standby = .ok ((), next) ∧
      Mirrors filters after next := by
  obtain ⟨session, start, required, rest⟩ := Tx.bind_eq_ok.mp run
  obtain ⟨held, rfl⟩ := requireSession_ok.mp required
  cases tinsert_eq_ok.mp rest
  refine ⟨_, Tx.bind_eq_ok.mpr ⟨session, standby,
    requireSession_ok.mpr ⟨mirrors.session held (admitted session held), rfl⟩, rfl⟩, ?_⟩
  exact mirrors.setRow (.part uploadId partNo) (some value) fun _ => Key.noConfusion

theorem Mirrors.sent_multipartCreate (mirrors : Mirrors filters primary standby) {seq : Nat}
    {uploadId : String} {session : MultipartSession} {after : Store}
    (sent : filters.allowsBucket session.bucket = true)
    (run : applyOp false seq (.multipartCreate uploadId session) primary = .ok ((), after)) :
    ∃ next, applyOp true seq (.multipartCreate uploadId session) standby = .ok ((), next) ∧
      Mirrors filters after next := by
  obtain ⟨bucket, start, required, rest⟩ := Tx.bind_eq_ok.mp run
  obtain ⟨held, rfl⟩ := requireBucket_ok.mp required
  replace rest := tinsert_bind_ok.mp rest
  cases tinsert_eq_ok.mp rest
  have there : standby (.bucket session.bucket) = some bucket := by
    rw [← mirrors.rows (.bucket session.bucket) sent]
    exact held
  refine ⟨_, Tx.bind_eq_ok.mpr ⟨bucket, standby, requireBucket_ok.mpr ⟨there, rfl⟩, rfl⟩, ?_⟩
  have set := mirrors.setSession uploadId (some session)
  rw [Option.filter_some, if_pos sent] at set
  exact set.setRow (.sessionIndex session.bucket uploadId) (some ()) fun _ => Key.noConfusion

theorem Mirrors.dropped_multipartCreate (mirrors : Mirrors filters primary standby) {seq : Nat}
    {uploadId : String} {session : MultipartSession} {after : Store}
    (dropped : filters.allowsBucket session.bucket = false)
    (admitted : ∀ old, primary (.session uploadId) = some old →
      filters.allowsBucket old.bucket = false)
    (run : applyOp false seq (.multipartCreate uploadId session) primary = .ok ((), after)) :
    Mirrors filters after standby := by
  obtain ⟨bucket, start, required, rest⟩ := Tx.bind_eq_ok.mp run
  obtain ⟨held, rfl⟩ := requireBucket_ok.mp required
  replace rest := tinsert_bind_ok.mp rest
  cases tinsert_eq_ok.mp rest
  have absent : standby (.session uploadId) = none := by
    rw [mirrors.sessions]
    cases there : start (.session uploadId) with
    | none => rfl
    | some old =>
      rw [Option.filter_some, if_neg (by rw [admitted old there]; exact Bool.noConfusion)]
  have set := mirrors.setSession uploadId (some session)
  rw [Option.filter_some, if_neg (by rw [dropped]; exact Bool.noConfusion), ← absent,
    Function.update_eq_self] at set
  apply set.of_frame
  intro key inside
  apply Function.update_of_ne
  intro same
  rcases inside with inside | ⟨id, named⟩
  · rw [same, shared, dropped] at inside
    cases inside
  · rw [named] at same
    cases same

end Sessions

def BatchAdmitted (filters : BucketFilter) (seq : Nat) : Store → Store → List Op → Prop
  | _, _, [] => True
  | primary, standby, op :: rest =>
    op.Admitted filters primary standby ∧
      ∀ after next, applyOp false seq op primary = .ok ((), after) →
        (if filters.keeps op then applyOp true seq op standby = .ok ((), next)
          else next = standby) →
        BatchAdmitted filters seq after next rest

theorem Mirrors.op {filters : BucketFilter} {primary standby after : Store} {seq : Nat} {op : Op}
    (mirrors : Mirrors filters primary standby) (admitted : op.Admitted filters primary standby)
    (run : applyOp false seq op primary = .ok ((), after)) :
    ∃ next, (if filters.keeps op then applyOp true seq op standby = .ok ((), next)
        else next = standby) ∧ Mirrors filters after next := by
  cases sent : filters.keeps op with
  | true =>
    simp only [if_true]
    cases plain : op.plain with
    | true => exact mirrors.sent_plain plain sent admitted run
    | false =>
      cases queues : op.queues with
      | true => exact mirrors.queued queues admitted run
      | false =>
        cases op with
        | multipartCreate uploadId session => exact mirrors.sent_multipartCreate sent run
        | multipartUpdate uploadId completed finalEtag finalSize finalMtime =>
          exact mirrors.sent_multipartUpdate admitted run
        | multipartDelete uploadId => exact mirrors.sent_multipartDelete admitted run
        | partPut uploadId partNo value => exact mirrors.sent_partPut admitted run
        | _ => simp [Op.plain, Op.queues] at plain queues
  | false =>
    refine ⟨standby, by simp, ?_⟩
    cases plain : op.plain with
    | true => exact mirrors.dropped_plain plain sent run
    | false =>
      cases queues : op.queues with
      | true =>
        exact mirrors.of_frame fun key held =>
          (applyOp_within false seq op).frame run key (queues_touches queues held)
      | false =>
        cases op with
        | multipartCreate uploadId session =>
          have dropped : filters.allowsBucket session.bucket = false := sent
          rcases admitted with allowed | free
          · rw [dropped] at allowed
            cases allowed
          · exact mirrors.dropped_multipartCreate dropped free run
        | multipartUpdate | multipartDelete | partPut => cases sent
        | _ => simp [Op.plain, Op.queues] at plain queues

theorem Mirrors.batch {filters : BucketFilter} {primary standby after : Store} {seq : Nat}
    {ops : List Op} (mirrors : Mirrors filters primary standby)
    (admitted : BatchAdmitted filters seq primary standby ops)
    (run : ops.forM (applyOp false seq) primary = .ok ((), after)) :
    ∃ next, (ops.filter filters.keeps).forM (applyOp true seq) standby = .ok ((), next) ∧
      Mirrors filters after next := by
  induction ops generalizing primary standby with
  | nil =>
    cases Tx.pure_eq_ok.mp run
    exact ⟨standby, rfl, mirrors⟩
  | cons op rest ih =>
    obtain ⟨_, middle, ran, remaining⟩ := Tx.bind_eq_ok.mp run
    obtain ⟨next, replayed, kept⟩ := mirrors.op admitted.1 ran
    obtain ⟨last, finished, held⟩ := ih kept (admitted.2 middle next ran replayed) remaining
    refine ⟨last, ?_, held⟩
    rw [List.filter_cons]
    cases sent : filters.keeps op with
    | true =>
      rw [sent, if_pos rfl] at replayed
      rw [if_pos rfl]
      exact Tx.bind_eq_ok.mpr ⟨(), next, replayed, finished⟩
    | false =>
      rw [sent, if_neg Bool.noConfusion] at replayed
      rw [if_neg Bool.noConfusion, ← replayed]
      exact finished

/-- A batch that the primary commits; `trimmed` is as in `Fate.kept`. -/
structure Batch where
  now : Int
  ops : List Op
  trimmed : Bool

namespace MetaStore

def gtidOf (store : MetaStore) (seq : Nat) : Gtid :=
  ⟨(store.rows .replEpoch).getD replInitialEpoch, seq - (store.rows .replEbase).getD 0⟩

def commitAll (config : MetaConfig) :
    MetaStore → List Batch → Except Error (MetaStore × List (Gtid × ReplRecord))
  | store, [] => .ok (store, [])
  | store, batch :: rest =>
    match store.commit config (.kept batch.trimmed) batch.now batch.ops with
    | (.error e, _) => .error e
    | (.ok seq, next) =>
      match commitAll config next rest with
      | .error e => .error e
      | .ok (last, records) =>
        let written := (next.rows (.binlog (next.gtidOf seq))).map fun record =>
          (next.gtidOf seq, record)
        .ok (last, written.toList ++ records)

def applyAll (config : MetaConfig) (filters : BucketFilter) (trims : Gtid → Bool) :
    MetaStore → List (Gtid × ReplRecord) → Except Error MetaStore
  | store, [] => .ok store
  | store, (gtid, record) :: rest =>
    match store.applyReplRecord config (.kept (trims gtid)) gtid (record.scopedFor filters) with
    | (.error e, _) => .error e
    | (.ok _, next) => applyAll config filters trims next rest

end MetaStore

section History

variable (config there : MetaConfig) (filters : BucketFilter) (trims : Gtid → Bool)

def Admitted : MetaStore → MetaStore → List Batch → Prop
  | _, _, [] => True
  | primary, standby, batch :: rest =>
    BatchAdmitted filters ((primary.rows .seq).getD 0 + 1) primary.rows standby.rows batch.ops ∧
      ∀ seq next record,
        primary.commit config (.kept batch.trimmed) batch.now batch.ops = (.ok seq, next) →
        next.rows (.binlog (next.gtidOf seq)) = some record →
        Admitted next
          (standby.applyReplRecord there (.kept (trims (next.gtidOf seq))) (next.gtidOf seq)
            (record.scopedFor filters)).2 rest

end History

def inScope (filters : BucketFilter) (rows : Store) : Key → Bool
  | .bucket b | .location b | .conf _ b | .lifecycleRules b | .notificationRules b
  | .inventoryRules b | .object b _ _ | .sessionIndex b _ => filters.allowsBucket b
  | .session uploadId | .part uploadId _ =>
    (rows (.session uploadId)).any fun session => filters.allowsBucket session.bucket
  | _ => false

def restrict (filters : BucketFilter) (rows : Store) : Store :=
  fun key => if inScope filters rows key then rows key else Value.absent key

section Restrict

variable {filters : BucketFilter} {primary standby : Store}

theorem Mirrors.inScope (mirrors : Mirrors filters primary standby) (key : Key) :
    Meta.inScope filters standby key = Meta.inScope filters primary key := by
  have same : ∀ uploadId, (standby (.session uploadId)).any
      (fun session => filters.allowsBucket session.bucket) =
        (primary (.session uploadId)).any fun session => filters.allowsBucket session.bucket := by
    intro uploadId
    rw [mirrors.sessions]
    cases primary (.session uploadId) with
    | none => rfl
    | some session => cases sent : filters.allowsBucket session.bucket <;> simp [sent]
  cases key with
  | session uploadId => exact same uploadId
  | part uploadId partNo => exact same uploadId
  | _ => rfl

theorem Mirrors.row (mirrors : Mirrors filters primary standby) {key : Key}
    (inside : Meta.inScope filters primary key = true) : standby key = primary key := by
  cases key with
  | bucket | location | conf | lifecycleRules | notificationRules | inventoryRules | object
  | sessionIndex =>
    symm
    apply mirrors.rows
    exact inside
  | part uploadId partNo => exact (mirrors.rows (.part uploadId partNo) rfl).symm
  | session uploadId =>
    cases held : primary (.session uploadId) with
    | none =>
      rw [mirrors.sessions, held]
      rfl
    | some session =>
      simp only [Meta.inScope, held, Option.any_some] at inside
      exact mirrors.session held inside
  | _ => cases inside

theorem Mirrors.restrict (mirrors : Mirrors filters primary standby) :
    Meta.restrict filters standby = Meta.restrict filters primary := by
  funext key
  rw [Meta.restrict, Meta.restrict, mirrors.inScope]
  by_cases inside : Meta.inScope filters primary key = true
  · rw [if_pos inside, if_pos inside]
    exact mirrors.row inside
  · rw [if_neg inside, if_neg inside]

end Restrict

/-- A primary that was never promoted and its replica, after `count` commits. -/
structure Synced (filters : BucketFilter) (count : Nat) (primary standby : Store) : Prop where
  mirrors : Mirrors filters primary standby
  seq : (primary .seq).getD 0 = count
  epoch : primary .replEpoch = none
  ebase : primary .replEbase = none
  standbyEpoch : standby .replEpoch = none
  behind : ∀ later, count < later → Gtid.le ⟨1, later⟩ ((standby .replCursor).getD ⟨0, 0⟩) = false
  cursorEpoch : ((standby .replCursor).getD ⟨0, 0⟩).epoch ≤ 1

theorem Synced.start (filters : BucketFilter) : Synced filters 0 Store.empty Store.empty where
  mirrors := ⟨fun _ _ => rfl, fun _ => rfl⟩
  seq := rfl
  epoch := rfl
  ebase := rfl
  standbyEpoch := rfl
  behind := fun _ _ => rfl
  cursorEpoch := Nat.zero_le 1

theorem Synced.settled {filters : BucketFilter} {count : Nat} {primary standby primary' standby' : Store}
    (synced : Synced filters count primary standby)
    (frame : ∀ key, key ≠ .events → primary' key = primary key)
    (frame' : ∀ key, key ≠ .events → standby' key = standby key) :
    Synced filters count primary' standby' where
  mirrors := by
    apply (synced.mirrors.of_frame _).of_standby_frame
    · intro key held
      apply frame'
      rintro rfl
      rcases held with held | ⟨_, named⟩
      · cases held
      · cases named
    · intro key held
      apply frame
      rintro rfl
      rcases held with held | ⟨_, named⟩
      · cases held
      · cases named
  seq := by
    rw [frame _ Key.noConfusion]
    exact synced.seq
  epoch := by
    rw [frame _ Key.noConfusion]
    exact synced.epoch
  ebase := by
    rw [frame _ Key.noConfusion]
    exact synced.ebase
  standbyEpoch := by
    rw [frame' _ Key.noConfusion]
    exact synced.standbyEpoch
  behind := by
    rw [frame' _ Key.noConfusion]
    exact synced.behind
  cursorEpoch := by
    rw [frame' _ Key.noConfusion]
    exact synced.cursorEpoch

def nextRecord (count : Nat) (batch : Batch) : ReplRecord :=
  { ReplRecord.new 1 batch.ops with ts := some batch.now, rawSeq := some (count + 1) }

theorem scopedFor_epoch (record : ReplRecord) (filters : BucketFilter) :
    (record.scopedFor filters).epoch = record.epoch := by
  unfold ReplRecord.scopedFor
  dsimp only
  split
  · rfl
  · split <;> rfl

theorem scopedFor_rawSeq (record : ReplRecord) (filters : BucketFilter) :
    (record.scopedFor filters).rawSeq = record.rawSeq := by
  unfold ReplRecord.scopedFor
  dsimp only
  split
  · rfl
  · split <;> rfl

theorem Synced.committed {filters : BucketFilter} {count newSeq : Nat} {primary standby after : Store}
    {batch : Batch} (synced : Synced filters count primary standby)
    (run : applyOps (.commit true batch.now) batch.ops primary = .ok (newSeq, after)) :
    ∃ middle, batch.ops.forM (applyOp false (count + 1)) primary = .ok ((), middle) ∧
      newSeq = count + 1 ∧
      after = Function.update
        (Function.update middle (.binlog ⟨1, count + 1⟩) (some (nextRecord count batch))) .seq
        (some (count + 1)) := by
  obtain ⟨middle, written, ran, logged, updated, numbered⟩ := applyOps_ok run
  simp only [ApplyMode.isReplay, ApplyMode.numbers, synced.seq] at ran logged updated numbered
  have epoch : middle .replEpoch = none := by
    rw [forM_progress ran rfl]
    exact synced.epoch
  have ebase : middle .replEbase = none := by
    rw [forM_progress ran rfl]
    exact synced.ebase
  have rest := tget_bind_ok.mp logged
  replace rest := tget_bind_ok.mp rest
  simp only [epoch, ebase, Option.getD_none, Nat.not_lt_zero, if_false] at rest
  cases tinsert_eq_ok.mp rest
  have named : (⟨(middle .replEpoch).getD replInitialEpoch,
      count + 1 - (middle .replEbase).getD 0⟩ : Gtid) = ⟨1, count + 1⟩ := by
    rw [epoch, ebase]
    rfl
  rw [named] at updated
  exact ⟨middle, ran, numbered, updated⟩

theorem Synced.step {filters : BucketFilter} {count newSeq : Nat} {primary standby after : Store}
    {batch : Batch} (synced : Synced filters count primary standby)
    (admitted : BatchAdmitted filters (count + 1) primary standby batch.ops)
    (run : applyOps (.commit true batch.now) batch.ops primary = .ok (newSeq, after)) :
    newSeq = count + 1 ∧ after .replEpoch = none ∧ after .replEbase = none ∧
      after (.binlog ⟨1, count + 1⟩) = some (nextRecord count batch) ∧
      ∃ next, replApplyTx ⟨1, count + 1⟩ ((nextRecord count batch).scopedFor filters) standby =
          .ok (.applied, next) ∧
        Synced filters (count + 1) after next := by
  obtain ⟨middle, ran, numbered, updated⟩ := synced.committed run
  obtain ⟨mirrored, replayed, mirrors⟩ := synced.mirrors.batch admitted ran
  have sameEpoch : ((nextRecord count batch).scopedFor filters).epoch = 1 := scopedFor_epoch _ _
  have sameSeq : ((nextRecord count batch).scopedFor filters).rawSeq = some (count + 1) :=
    scopedFor_rawSeq _ _
  obtain ⟨next, applied, landed⟩ := replApplyTx_succeeds (synced.behind (count + 1) (Nat.lt_succ_self _))
    (by rw [sameEpoch]; exact max_le synced.cursorEpoch (Nat.le_refl 1))
    (by rw [sameEpoch, synced.standbyEpoch]; exact Nat.le_refl 1) (Nat.le_add_left 1 count)
    (by rw [sameSeq, ReplRecord.scopedFor_ops]; exact replayed)
  have epoch : after .replEpoch = none := by
    rw [updated, Function.update_of_ne Key.noConfusion, Function.update_of_ne Key.noConfusion,
      forM_progress ran rfl]
    exact synced.epoch
  have ebase : after .replEbase = none := by
    rw [updated, Function.update_of_ne Key.noConfusion, Function.update_of_ne Key.noConfusion,
      forM_progress ran rfl]
    exact synced.ebase
  refine ⟨numbered, epoch, ebase, ?_, next, applied, ?_, ?_, epoch, ebase, ?_, ?_, ?_⟩
  · rw [updated, Function.update_of_ne Key.noConfusion, Function.update_self]
  · apply (mirrors.of_frame _).of_standby_frame
    · intro key held
      apply landed.rows
      rcases held with held | ⟨_, rfl⟩
      · cases key <;> first | rfl | cases held
      · rfl
    · intro key held
      rw [updated, Function.update_of_ne, Function.update_of_ne]
      · rintro rfl
        rcases held with held | ⟨_, named⟩
        · cases held
        · cases named
      · rintro rfl
        rcases held with held | ⟨_, named⟩
        · cases held
        · cases named
  · rw [updated, Function.update_self]
    rfl
  · rw [landed.epoch, forM_progress replayed rfl]
    exact synced.standbyEpoch
  · intro later ahead
    rw [landed.cursor]
    simp only [Gtid.le, Option.getD_some, Nat.lt_irrefl, decide_false, beq_self_eq_true,
      Bool.false_or, Bool.true_and, decide_eq_false_iff_not]
    omega
  · rw [landed.cursor]
    exact Nat.le_refl 1

theorem applyAll_mirrors {config there : MetaConfig} {filters : BucketFilter} {trims : Gtid → Bool}
    (logs : config.replBinlog = true) {count : Nat} {first standby primary : MetaStore}
    {history : List Batch} {records : List (Gtid × ReplRecord)}
    (synced : Synced filters count first.rows standby.rows)
    (admitted : Admitted config there filters trims first standby history)
    (committed : first.commitAll config history = .ok (primary, records)) :
    ∃ last, standby.applyAll there filters trims records = .ok last ∧
      Mirrors filters primary.rows last.rows := by
  induction history generalizing count first standby records with
  | nil =>
    cases committed
    exact ⟨standby, rfl, synced.mirrors⟩
  | cons batch rest ih =>
    cases outcome : applyOps (.commit config.replBinlog batch.now) batch.ops first.rows with
    | error e => simp only [MetaStore.commitAll, MetaStore.commit, outcome, reduceCtorEq] at committed
    | ok result =>
      obtain ⟨newSeq, after⟩ := result
      have commits : first.commit config (.kept batch.trimmed) batch.now batch.ops =
          (.ok newSeq, MetaStore.settle config { first with rows := after } batch.ops
            batch.trimmed) := by
        simp only [MetaStore.commit, outcome]
      rw [logs] at outcome
      have batchAdmitted := admitted.1
      rw [synced.seq] at batchAdmitted
      obtain ⟨numbered, epoch, ebase, written, next, applied, stepped⟩ :=
        synced.step batchAdmitted outcome
      generalize settled : MetaStore.settle config { first with rows := after } batch.ops
        batch.trimmed = committedStore at commits
      have frame : ∀ key, key ≠ .events → committedStore.rows key = after key := by
        intro key other
        rw [← settled]
        exact MetaStore.settle_frame config _ batch.ops batch.trimmed other
      have gtid : committedStore.gtidOf newSeq = ⟨1, count + 1⟩ := by
        rw [MetaStore.gtidOf, frame _ Key.noConfusion, frame _ Key.noConfusion, epoch, ebase,
          numbered]
        rfl
      have record : committedStore.rows (.binlog ⟨1, count + 1⟩) =
          some (nextRecord count batch) := by
        rw [frame _ Key.noConfusion]
        exact written
      have remaining := admitted.2 newSeq committedStore (nextRecord count batch) commits
        (by rw [gtid]; exact record)
      have applies : standby.applyReplRecord there (.kept (trims ⟨1, count + 1⟩)) ⟨1, count + 1⟩
          ((nextRecord count batch).scopedFor filters) =
          (.ok .applied, MetaStore.settle there { standby with rows := next }
            ((nextRecord count batch).scopedFor filters).ops (trims ⟨1, count + 1⟩)) := by
        have sameEpoch : ((nextRecord count batch).scopedFor filters).epoch = 1 :=
          scopedFor_epoch _ _
        simp only [MetaStore.applyReplRecord, sameEpoch, ne_eq, not_true_eq_false, if_false,
          applied]
      rw [gtid, applies] at remaining
      have sent : (committedStore.rows (.binlog (committedStore.gtidOf newSeq))).map
          (fun record => (committedStore.gtidOf newSeq, record)) =
            some (⟨1, count + 1⟩, nextRecord count batch) := by
        rw [gtid, record]
        rfl
      simp only [MetaStore.commitAll, commits, sent] at committed
      cases later : committedStore.commitAll config rest with
      | error e =>
        rw [later] at committed
        cases committed
      | ok ended =>
        rw [later] at committed
        cases committed
        have ready := stepped.settled frame fun key other =>
          MetaStore.settle_frame there { standby with rows := next }
            ((nextRecord count batch).scopedFor filters).ops (trims ⟨1, count + 1⟩) other
        obtain ⟨last, followed, mirrors⟩ := ih ready remaining later
        refine ⟨last, ?_, mirrors⟩
        simp only [Option.toList_some, List.singleton_append, MetaStore.applyAll, applies]
        exact followed

/-- A history of commits whose every sent operation finds what it reads: the filtered
stream applies to a new replica without an error, and the two nodes hold the same rows
of the buckets that the filter lets through. -/
theorem scoped_stream_applies (config there : MetaConfig) (logs : config.replBinlog = true)
    (filters : BucketFilter) (trims : Gtid → Bool) (history : List Batch) (primary : MetaStore)
    (records : List (Gtid × ReplRecord))
    (committed : (MetaStore.opened Store.empty).commitAll config history = .ok (primary, records))
    (admitted : Admitted config there filters trims (MetaStore.opened Store.empty)
      (MetaStore.opened Store.empty) history) :
    ∃ standby, (MetaStore.opened Store.empty).applyAll there filters trims records = .ok standby ∧
      restrict filters standby.rows = restrict filters primary.rows := by
  have synced : Synced filters 0 (MetaStore.opened Store.empty).rows
      (MetaStore.opened Store.empty).rows := Synced.start filters
  obtain ⟨standby, applied, mirrors⟩ := applyAll_mirrors logs synced admitted committed
  exact ⟨standby, applied, mirrors.restrict⟩

def uploadIn (bucket : String) : MultipartSession where
  bucket := bucket
  key := "a"
  completed := false
  finalEtag := []
  finalSize := 0
  finalMtime := 0

/-- An upload of `bucket` with one part, next to a bucket of photos. -/
def uploadHistory (bucket : String) : List Batch :=
  [⟨0, [.bucketPut "photos" .created none, .bucketPut "logs" .created none], true⟩,
   ⟨0, [.multipartCreate "u" (uploadIn bucket)], true⟩,
   ⟨0, [.partPut "u" 1 ⟨1, [], some [7], none, none⟩], true⟩]

def uploadConfig : MetaConfig := { replBinlog := true, eventQueueMax := 100 }

/-- The upload of a bucket that is sent arrives with its part. -/
theorem scoped_stream_applies_upload :
    ∃ primary records standby,
      (MetaStore.opened Store.empty).commitAll uploadConfig (uploadHistory "photos") =
        .ok (primary, records) ∧
      (MetaStore.opened Store.empty).applyAll uploadConfig (.include ["photos"]) (fun _ => true)
        records = .ok standby ∧
      restrict (.include ["photos"]) standby.rows = restrict (.include ["photos"]) primary.rows := by
  have admitted : Admitted uploadConfig uploadConfig (.include ["photos"]) (fun _ => true)
      (MetaStore.opened Store.empty) (MetaStore.opened Store.empty) (uploadHistory "photos") := by
    refine ⟨⟨trivial, fun _ _ _ _ => ⟨trivial, fun _ _ _ _ => trivial⟩⟩, ?_⟩
    intro _ first _ begun _
    refine ⟨⟨.inl rfl, fun _ _ _ _ => trivial⟩, ?_⟩
    intro _ second _ opened _
    refine ⟨⟨?_, fun _ _ _ _ => trivial⟩, fun _ _ _ _ _ => trivial⟩
    intro session held
    have same : session = uploadIn "photos" := by
      cases begun
      cases opened
      exact (Option.some.inj held).symm
    rw [same]
    rfl
  obtain ⟨primary, records, committed⟩ : ∃ primary records,
      (MetaStore.opened Store.empty).commitAll uploadConfig (uploadHistory "photos") =
        .ok (primary, records) := ⟨_, _, rfl⟩
  obtain ⟨standby, applied, same⟩ := scoped_stream_applies uploadConfig uploadConfig rfl
    (.include ["photos"]) (fun _ => true) (uploadHistory "photos") primary records committed admitted
  exact ⟨primary, records, standby, committed, applied, same⟩

/-- The upload of a bucket that is not sent commits, and its part stops the stream. -/
theorem filtered_upload_stops :
    ∃ primary records,
      (MetaStore.opened Store.empty).commitAll uploadConfig (uploadHistory "logs") =
        .ok (primary, records) ∧
      (MetaStore.opened Store.empty).applyAll uploadConfig (.include ["photos"]) (fun _ => true)
        records = .error (.notFound "upload u") := by
  obtain ⟨primary, records, committed⟩ : ∃ primary records,
      (MetaStore.opened Store.empty).commitAll uploadConfig (uploadHistory "logs") =
        .ok (primary, records) := ⟨_, _, rfl⟩
  have stopped : (match (MetaStore.opened Store.empty).commitAll uploadConfig
        (uploadHistory "logs") with
      | .error _ => none
      | .ok (_, records) =>
        match (MetaStore.opened Store.empty).applyAll uploadConfig (.include ["photos"])
            (fun _ => true) records with
        | .error e => some e
        | .ok _ => none) = some (Error.notFound "upload u") := by
    decide +kernel
  rw [committed] at stopped
  dsimp only at stopped
  refine ⟨primary, records, committed, ?_⟩
  cases outcome : (MetaStore.opened Store.empty).applyAll uploadConfig (.include ["photos"])
      (fun _ => true) records with
  | ok standby =>
    rw [outcome] at stopped
    cases stopped
  | error e =>
    rw [outcome] at stopped
    cases stopped
    rfl

end FastS3.Meta
