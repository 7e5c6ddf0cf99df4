import FastS3.Daemon.MetaImport

namespace FastS3.Daemon

open Data
open FastS3.Core (Bytes Error Segment Vk vkNull)

/-! The rows that an import of an exported file restores. -/

variable {s s' : MetadataStore} {done : Unit}

@[simp] theorem liftExcept_eq_ok {α : Type} {result : Except Error α} {value : α} :
    liftExcept result s = .ok value s' ↔ result = .ok value ∧ s = s' := by
  cases result with
  | ok found => simp [liftExcept]
  | error reason => simp [liftExcept]

@[simp] theorem checked_eq_ok {β : Type} {condition : Prop} [Decidable condition] {reason : Error}
    {next : Unit → ImportM β} {value : β} :
    (if condition then throw reason >>= next else next ()) s = .ok value s' ↔
      ¬condition ∧ next () s = .ok value s' := by
  by_cases holds : condition
  · simp [holds, bind_eq_ok]
  · simp [holds]

theorem requireBucket_ok {name : String} (run : requireBucket name s = .ok done s') :
    (s.buckets.lookup name).isSome ∧ s' = s := by
  unfold requireBucket at run
  obtain ⟨found, middle, read, rest⟩ := bind_eq_ok.mp run
  obtain ⟨rfl, rfl⟩ := get_eq_ok.mp read
  split at rest
  · simp at rest
  · next present =>
      simp only [pure_eq_ok] at rest
      obtain ⟨-, rfl⟩ := rest
      exact ⟨by simpa [Option.isSome_iff_ne_none] using present, rfl⟩

variable {m : ObjectMeta} {key bucket : String} {partNo : Nat}

theorem checkObjectSize_ok (run : checkObjectSize m s = .ok done s') : s' = s := by
  unfold checkObjectSize at run
  split at run
  · simp at run
  · simp only [pure_eq_ok] at run
    exact run.2.symm

theorem putObjectRow_ok {place : VersionKey} (run : putObjectRow place m s = .ok done s') :
    s' = { s with objects := s.objects.insert place m } := by
  unfold putObjectRow at run
  rw [modify_eq_ok] at run
  exact run.symm

theorem commitObjectPut_ok (run : commitObjectPut bucket key m s = .ok done s') :
    s' = { s with objects := s.objects.insert ⟨bucket, key, none⟩ m } := by
  unfold commitObjectPut at run
  obtain ⟨_, middle, size, rest⟩ := bind_eq_ok.mp run
  cases checkObjectSize_ok size
  obtain ⟨_, middle, required, rest⟩ := bind_eq_ok.mp rest
  cases (requireBucket_ok required).2
  exact putObjectRow_ok rest

theorem commitObjectPutVersion_ok {vk : Vk}
    (run : commitObjectPutVersion bucket key vk m s = .ok done s') :
    s' = { s with objects := s.objects.insert ⟨bucket, key, some vk⟩ m } := by
  unfold commitObjectPutVersion at run
  obtain ⟨_, middle, size, rest⟩ := bind_eq_ok.mp run
  cases checkObjectSize_ok size
  obtain ⟨_, middle, required, rest⟩ := bind_eq_ok.mp rest
  cases (requireBucket_ok required).2
  exact putObjectRow_ok (checked_eq_ok.mp rest).2

theorem commitObjectDeleteCurrent_ok {vk : Option Vk} {marker : ObjectMeta}
    (run : commitObjectDeleteCurrent bucket key vk marker s = .ok done s') :
    s' = { s with objects := s.objects.insert ⟨bucket, key, vk⟩ marker } := by
  unfold commitObjectDeleteCurrent at run
  obtain ⟨_, middle, required, rest⟩ := bind_eq_ok.mp run
  cases (requireBucket_ok required).2
  exact putObjectRow_ok (checked_eq_ok.mp rest).2

theorem createMultipart_ok {uploadId : String} {session : MultipartSession}
    (run : createMultipart uploadId session s = .ok done s') :
    s' = { s with sessions := s.sessions.insert uploadId session } := by
  unfold createMultipart at run
  obtain ⟨_, middle, required, rest⟩ := bind_eq_ok.mp run
  cases (requireBucket_ok required).2
  rw [modify_eq_ok] at rest
  exact rest.symm

theorem putPart_ok {uploadId : String} {part : PartMeta}
    (run : putPart uploadId partNo part s = .ok done s') :
    s' = { s with parts := s.parts.insert ⟨uploadId, partNo⟩ part } := by
  unfold putPart at run
  obtain ⟨found, middle, read, rest⟩ := bind_eq_ok.mp run
  obtain ⟨rfl, rfl⟩ := get_eq_ok.mp read
  have stored := (checked_eq_ok.mp rest).2
  rw [modify_eq_ok] at stored
  exact stored.symm

/-- The record under a form of the key as it comes back: the entry of the compression is lost. -/
def ObjectMeta.restored (vk : Option Vk) (m : ObjectMeta) : ObjectMeta :=
  { m with versionId := vk.filter fun v => v ≠ vkNull, compressed := none }

def MultipartSession.restored (session : MultipartSession) : MultipartSession :=
  { session with retention := none, legalHold := none }

variable {base64 : Base64} {layout : LayoutInfoDto}

@[simp] theorem RestoreStateDto.toState_fromState (st : Core.RestoreState) :
    RestoreStateDto.toState base64 (RestoreStateDto.fromState base64 st) = .ok st := by
  simp [RestoreStateDto.toState, RestoreStateDto.fromState, bind, Except.bind, pure, Except.pure]

theorem ObjectDto.toMeta_fromMeta {back : ObjectMeta} {vk form : Option Vk}
    (parsed : (ObjectDto.fromMeta base64 m vk).toMeta base64 = .ok (form, back)) :
    form = vk ∧ back = m.restored vk := by
  unfold ObjectDto.toMeta at parsed
  obtain ⟨etag, etagRead, parsed⟩ := S3.bind_ok parsed
  obtain ⟨inline, inlineRead, parsed⟩ := S3.bind_ok parsed
  obtain ⟨found, formRead, parsed⟩ := S3.bind_ok parsed
  obtain ⟨restoreState, stateRead, parsed⟩ := S3.bind_ok parsed
  have sameEtag : etag = m.etag := sixteenBytes_hexEncode etagRead
  have sameInline : inline = m.inline :=
    (Except.ok.inj ((base64.decodeInline_encode "inline" m.inline).symm.trans inlineRead)).symm
  have sameForm : found = vk := versionIdParse_export formRead
  have sameState : restoreState = m.restoreState :=
    (Except.ok.inj ((readOption_map RestoreStateDto.toState_fromState m.restoreState).symm.trans
      stateRead)).symm
  subst sameEtag sameInline sameForm sameState
  obtain ⟨rfl, rfl⟩ := Prod.mk.inj (Except.ok.inj parsed)
  refine ⟨rfl, ?_⟩
  simp [ObjectMeta.restored, ObjectDto.fromMeta]

theorem PartDto.toPart_fromPart {p back : PartMeta}
    (parsed : (PartDto.fromPart base64 partNo p).toPart base64 = .ok back) : back = p := by
  unfold PartDto.toPart at parsed
  obtain ⟨etag, etagRead, parsed⟩ := S3.bind_ok parsed
  obtain ⟨inline, inlineRead, parsed⟩ := S3.bind_ok parsed
  have sameEtag : etag = p.etag := sixteenBytes_hexEncode etagRead
  have sameInline : inline = p.inline :=
    (Except.ok.inj ((base64.decodeInline_encode "part inline" p.inline).symm.trans inlineRead)).symm
  subst sameEtag sameInline
  rw [← Except.ok.inj parsed]
  simp [PartDto.fromPart]

@[simp] theorem SseS3SessionDto.toSession_written (uploadId : String) (s3 : Engine.SessionSseS3) :
    SseS3SessionDto.toSession uploadId ⟨s3.kekId, S3.hexEncode s3.wrappedDek⟩ = .ok s3 := by
  simp [SseS3SessionDto.toSession, S3.hexDecode_hexEncode]

theorem UploadDto.toSession_fromSession {uploadId : String} {session back : MultipartSession}
    {parts : List (Nat × PartMeta)}
    (parsed : (UploadDto.fromSession base64 uploadId session parts).toSession = .ok back) :
    back = session.restored := by
  unfold UploadDto.toSession at parsed
  obtain ⟨finalEtag, etagRead, parsed⟩ := S3.bind_ok parsed
  obtain ⟨sseS3, keyRead, parsed⟩ := S3.bind_ok parsed
  have sameEtag : finalEtag = session.finalEtag := sixteenBytes_hexEncode etagRead
  have sameKey : sseS3 = session.sseS3 :=
    (Except.ok.inj ((readOption_map (SseS3SessionDto.toSession_written uploadId)
      session.sseS3).symm.trans keyRead)).symm
  have sameKms : (session.sseKms.map fun k => (⟨k.keyName, k.wrappedDek, k.contextSuffix,
      k.bucketKeyEnabled⟩ : SseKmsSessionDto)).map (fun k => (⟨k.keyName, k.wrappedDek,
        k.contextSuffix, k.bucketKeyEnabled⟩ : Engine.SessionSseKms)) = session.sseKms := by
    rw [Option.map_map]
    exact Option.map_id'
  subst sameEtag sameKey
  rw [← Except.ok.inj parsed]
  simp only [UploadDto.fromSession, MultipartSession.restored, sameKms]

theorem importBucket_ok {configure : BucketDto → Except Error Unit} {b : BucketDto}
    (run : importBucket configure b s = .ok done s') :
    s' = { s with buckets := s.buckets.insert b.name b.toMeta } := by
  unfold importBucket at run
  obtain ⟨found, middle, read, rest⟩ := bind_eq_ok.mp run
  obtain ⟨rfl, rfl⟩ := get_eq_ok.mp read
  obtain ⟨_, middle, stored, rest⟩ := bind_eq_ok.mp (checked_eq_ok.mp rest).2
  rw [modify_eq_ok] at stored
  rw [liftExcept_eq_ok] at rest
  rw [← rest.2, ← stored]

theorem importObject_ok {place : VersionKey}
    (run : importObject base64 layout (exportObject base64 place m) s = .ok done s') :
    s' = { s with objects := s.objects.insert place (m.restored place.vk) } := by
  unfold importObject at run
  obtain ⟨found, middle, read, rest⟩ := bind_eq_ok.mp run
  obtain ⟨rfl, rfl⟩ := get_eq_ok.mp read
  obtain ⟨⟨vk, back⟩, middle, parsed, rest⟩ := bind_eq_ok.mp (checked_eq_ok.mp rest).2
  rw [liftExcept_eq_ok] at parsed
  obtain ⟨parsed, rfl⟩ := parsed
  obtain ⟨rfl, rfl⟩ := ObjectDto.toMeta_fromMeta parsed
  obtain ⟨_, middle, extents, rest⟩ := bind_eq_ok.mp (checked_eq_ok.mp rest).2
  rw [liftExcept_eq_ok] at extents
  obtain ⟨-, rfl⟩ := extents
  obtain ⟨_, middle, extents, rest⟩ := bind_eq_ok.mp rest
  rw [liftExcept_eq_ok] at extents
  obtain ⟨-, rfl⟩ := extents
  obtain ⟨bucket, key, vk⟩ := place
  split at rest
  · exact commitObjectDeleteCurrent_ok rest
  · cases vk with
    | none => exact commitObjectPut_ok rest
    | some vk => exact commitObjectPutVersion_ok rest

theorem checkStats_ok {objects : List ObjectEntryDto} {b : BucketDto}
    (run : checkStats objects b s = .ok done s') : s' = s := by
  unfold checkStats at run
  simp only at run
  split at run
  · simp at run
  · simp only [pure_eq_ok] at run
    exact run.2.symm

theorem importPart_ok {uploadId : String} {p : PartMeta}
    (run : importPart base64 layout uploadId (PartDto.fromPart base64 partNo p) s = .ok done s') :
    s' = { s with parts := s.parts.insert ⟨uploadId, partNo⟩ p } := by
  unfold importPart at run
  obtain ⟨back, middle, parsed, rest⟩ := bind_eq_ok.mp run
  rw [liftExcept_eq_ok] at parsed
  obtain ⟨parsed, rfl⟩ := parsed
  cases PartDto.toPart_fromPart parsed
  obtain ⟨_, middle, extents, rest⟩ := bind_eq_ok.mp rest
  rw [liftExcept_eq_ok] at extents
  obtain ⟨-, rfl⟩ := extents
  exact putPart_ok rest

section Upload

variable {uploadId : String} {session : MultipartSession} {parts : List (Nat × PartMeta)}

structure UploadStored (uploadId : String) (session : MultipartSession)
    (parts : List (Nat × PartMeta)) (store : MetadataStore) : Prop where
  session : store.sessions.lookup uploadId = some session.restored
  parts : ∀ row ∈ parts, store.parts.lookup ⟨uploadId, row.1⟩ = some row.2

theorem importUpload_ok
    (run : importUpload base64 layout (UploadDto.fromSession base64 uploadId session parts) s =
      .ok done s') :
    rounds (fun row : Nat × PartMeta =>
        importPart base64 layout uploadId (PartDto.fromPart base64 row.1 row.2)) parts
      { s with sessions := s.sessions.insert uploadId session.restored } = .ok done s' := by
  unfold importUpload at run
  obtain ⟨found, middle, read, rest⟩ := bind_eq_ok.mp run
  obtain ⟨rfl, rfl⟩ := get_eq_ok.mp read
  obtain ⟨back, middle, parsed, rest⟩ := bind_eq_ok.mp (checked_eq_ok.mp rest).2
  rw [liftExcept_eq_ok] at parsed
  obtain ⟨parsed, rfl⟩ := parsed
  cases UploadDto.toSession_fromSession parsed
  obtain ⟨_, middle, created, rest⟩ := bind_eq_ok.mp rest
  cases createMultipart_ok created
  rw [← rounds.map_eq]
  exact rest

theorem importUpload_others
    (run : importUpload base64 layout (UploadDto.fromSession base64 uploadId session parts) s =
      .ok done s') :
    s'.buckets = s.buckets ∧ s'.objects = s.objects ∧
      (∀ other, other ≠ uploadId → s'.sessions.lookup other = s.sessions.lookup other) ∧
      ∀ key : Engine.PartKey, (∀ row ∈ parts, key ≠ ⟨uploadId, row.1⟩) →
        s'.parts.lookup key = s.parts.lookup key := by
  have later := importUpload_ok run
  refine ⟨?_, ?_, ?_, ?_⟩
  · apply rounds.unchanged MetadataStore.buckets later
    intro row member before after round
    rw [importPart_ok round]
  · apply rounds.unchanged MetadataStore.objects later
    intro row member before after round
    rw [importPart_ok round]
  · intro other apart
    have same := rounds.unchanged MetadataStore.sessions later (by
      intro row member before after round
      rw [importPart_ok round])
    rw [same]
    exact AList.lookup_insert_ne apart
  · intro key apart
    apply rounds.unchanged (fun store : MetadataStore => store.parts.lookup key) later
    intro row member before after round
    rw [importPart_ok round]
    exact AList.lookup_insert_ne (apart row member)

theorem importUpload_stored (distinct : (parts.map Prod.fst).Nodup)
    (run : importUpload base64 layout (UploadDto.fromSession base64 uploadId session parts) s =
      .ok done s') :
    UploadStored uploadId session parts s' := by
  have later := importUpload_ok run
  constructor
  · have same := rounds.unchanged MetadataStore.sessions later (by
      intro row member before after round
      rw [importPart_ok round])
    rw [same]
    exact AList.lookup_insert _
  · apply rounds.settles (fun (row : Nat × PartMeta) (store : MetadataStore) =>
      store.parts.lookup ⟨uploadId, row.1⟩ = some row.2) later (List.pairwise_map.mp distinct)
    · intro row member before after round
      rw [importPart_ok round]
      exact AList.lookup_insert _
    · intro row member other found apart before after round stored
      rw [importPart_ok round]
      rw [← stored]
      apply AList.lookup_insert_ne
      intro same
      exact apart (Engine.PartKey.mk.inj same).2

end Upload

section Tables

variable {κ : Type} [DecidableEq κ] {ν ν' : Type}

theorem rounds_table {step : (Sigma fun _ : κ => ν) → ImportM Unit}
    (view : MetadataStore → AList fun _ : κ => ν') (change : κ → ν → ν')
    {table : AList fun _ : κ => ν}
    (run : rounds step table.entries s = .ok done s') (empty : view s = ∅)
    (each : ∀ row before after, step row before = .ok () after →
      view after = (view before).insert row.1 (change row.1 row.2)) (key : κ) :
    (view s').lookup key = (table.lookup key).map (change key) := by
  have distinct := List.nodupKeys_iff_pairwise.mp table.nodupKeys
  cases stored : table.lookup key with
  | some value =>
    have settled := rounds.settles
      (fun (row : Sigma fun _ : κ => ν) (store : MetadataStore) =>
        (view store).lookup row.1 = some (change row.1 row.2)) run distinct
      (by
        intro row member before after round
        rw [each row before after round]
        exact AList.lookup_insert _)
      (by
        intro row member other found apart before after round held
        rw [each other before after round, ← held]
        exact AList.lookup_insert_ne apart)
    exact settled ⟨key, value⟩ (AList.mem_lookup_iff.mp stored)
  | none =>
    apply rounds.keeps (fun store => (view store).lookup key = none) run
    · intro row member before after round missing
      rw [each row before after round, ← missing]
      apply AList.lookup_insert_ne
      rintro rfl
      have found : table.lookup row.1 = some row.2 := AList.mem_lookup_iff.mpr member
      rw [found] at stored
      cases stored
    · rw [empty]
      rfl

end Tables

def MetadataStore.PartsOwned (store : MetadataStore) : Prop :=
  ∀ (key : Engine.PartKey) (part : PartMeta), store.parts.lookup key = some part →
    (store.sessions.lookup key.uploadId).isSome

structure Restored (original imported : MetadataStore) : Prop where
  buckets : ∀ name, imported.buckets.lookup name = original.buckets.lookup name
  objects : ∀ place, imported.objects.lookup place =
    (original.objects.lookup place).map (ObjectMeta.restored place.vk)
  sessions : ∀ uploadId, imported.sessions.lookup uploadId =
    (original.sessions.lookup uploadId).map MultipartSession.restored
  parts : ∀ key, imported.parts.lookup key = original.parts.lookup key

theorem mem_partsOf {store : MetadataStore} {uploadId : String} {partNo : Nat} {part : PartMeta} :
    (partNo, part) ∈ store.partsOf uploadId ↔
      store.parts.lookup ⟨uploadId, partNo⟩ = some part := by
  unfold MetadataStore.partsOf
  rw [List.mem_map, ← Option.mem_def, AList.mem_lookup_iff]
  constructor
  · rintro ⟨⟨⟨owner, number⟩, stored⟩, member, same⟩
    obtain ⟨member, owned⟩ := List.mem_filter.mp member
    simp only [decide_eq_true_eq] at owned
    obtain ⟨rfl, rfl⟩ := Prod.mk.inj same
    rw [← owned]
    exact member
  · intro member
    exact ⟨⟨⟨uploadId, partNo⟩, part⟩, List.mem_filter.mpr ⟨member, by simp⟩, rfl⟩

theorem partsOf_distinct (store : MetadataStore) (uploadId : String) :
    ((store.partsOf uploadId).map Prod.fst).Nodup := by
  unfold MetadataStore.partsOf
  rw [List.map_map]
  have distinct := List.nodupKeys_iff_pairwise.mp store.parts.nodupKeys
  apply List.pairwise_map.mpr
  apply List.Pairwise.imp_of_mem _ (distinct.filter _)
  rintro ⟨⟨owner, number⟩, part⟩ ⟨⟨owner', number'⟩, part'⟩ member member' apart same
  obtain ⟨-, owned⟩ := List.mem_filter.mp member
  obtain ⟨-, owned'⟩ := List.mem_filter.mp member'
  simp only [decide_eq_true_eq] at owned owned'
  apply apart
  change (⟨owner, number⟩ : Engine.PartKey) = ⟨owner', number'⟩
  rw [owned, owned', show number = number' from same]

section Whole

variable {original : MetadataStore} {configure : BucketDto → Except Error Unit}
  {others : Except Error Unit}

theorem importUploads_sessions
    (run : rounds (importUpload base64 layout)
      (original.sessions.entries.map fun row => exportUpload base64 original row.1 row.2) s =
        .ok done s') (empty : s.sessions = ∅) (uploadId : String) :
    s'.sessions.lookup uploadId =
      (original.sessions.lookup uploadId).map MultipartSession.restored := by
  rw [rounds.map_eq] at run
  have distinct := List.nodupKeys_iff_pairwise.mp original.sessions.nodupKeys
  cases stored : original.sessions.lookup uploadId with
  | some session =>
    have settled := rounds.settles
      (fun (row : Sigma fun _ : String => MultipartSession) (store : MetadataStore) =>
        store.sessions.lookup row.1 = some row.2.restored) run distinct
      (by
        intro row member before after round
        exact (importUpload_stored (partsOf_distinct original row.1) round).session)
      (by
        intro row member other found apart before after round held
        rw [(importUpload_others round).2.2.1 row.1 apart]
        exact held)
    exact settled ⟨uploadId, session⟩ (AList.mem_lookup_iff.mp stored)
  | none =>
    apply rounds.keeps (fun store => store.sessions.lookup uploadId = none) run
    · intro row member before after round missing
      rw [(importUpload_others round).2.2.1 uploadId, missing]
      rintro rfl
      rw [AList.mem_lookup_iff.mpr member] at stored
      cases stored
    · rw [empty]
      rfl

theorem importUploads_parts (owned : original.PartsOwned)
    (run : rounds (importUpload base64 layout)
      (original.sessions.entries.map fun row => exportUpload base64 original row.1 row.2) s =
        .ok done s') (empty : s.parts = ∅) (key : Engine.PartKey) :
    s'.parts.lookup key = original.parts.lookup key := by
  rw [rounds.map_eq] at run
  have distinct := List.nodupKeys_iff_pairwise.mp original.sessions.nodupKeys
  cases stored : original.parts.lookup key with
  | some part =>
    obtain ⟨session, opened⟩ := Option.isSome_iff_exists.mp (owned key part stored)
    have settled := rounds.settles
      (fun (row : Sigma fun _ : String => MultipartSession) (store : MetadataStore) =>
        ∀ entry ∈ original.partsOf row.1, store.parts.lookup ⟨row.1, entry.1⟩ = some entry.2)
      run distinct
      (by
        intro row member before after round
        exact (importUpload_stored (partsOf_distinct original row.1) round).parts)
      (by
        intro row member other found apart before after round held entry listed
        rw [(importUpload_others round).2.2.2 ⟨row.1, entry.1⟩]
        · exact held entry listed
        · intro entry' _ same
          exact apart (Engine.PartKey.mk.inj same).1)
    exact settled ⟨key.uploadId, session⟩ (AList.mem_lookup_iff.mp opened)
      (key.partNo, part) (mem_partsOf.mpr stored)
  | none =>
    apply rounds.keeps (fun store => store.parts.lookup key = none) run
    · intro row member before after round missing
      rw [(importUpload_others round).2.2.2 key, missing]
      rintro ⟨partNo, part⟩ listed rfl
      rw [mem_partsOf.mp listed] at stored
      cases stored
    · rw [empty]
      rfl

theorem runMetaImport_restored (owned : original.PartsOwned)
    (run : runMetaImport base64 layout configure others (runMetaExport base64 layout original)
      MetadataStore.empty = .ok done s') : Restored original s' := by
  unfold runMetaImport at run
  obtain ⟨-, run⟩ := checked_eq_ok.mp run
  obtain ⟨-, run⟩ := checked_eq_ok.mp run
  obtain ⟨_, withBuckets, bucketRounds, run⟩ := bind_eq_ok.mp run
  obtain ⟨_, middle, otherSteps, run⟩ := bind_eq_ok.mp run
  rw [liftExcept_eq_ok] at otherSteps
  obtain ⟨-, rfl⟩ := otherSteps
  obtain ⟨_, withObjects, objectRounds, run⟩ := bind_eq_ok.mp run
  obtain ⟨_, middle, statsRounds, uploadRounds⟩ := bind_eq_ok.mp run
  have sameStats : middle = withObjects :=
    rounds.unchanged (fun store : MetadataStore => store) statsRounds
      fun b member before after round => checkStats_ok round
  subst sameStats
  simp only [runMetaExport] at bucketRounds objectRounds uploadRounds
  rw [rounds.map_eq] at bucketRounds objectRounds
  have bucketsKept : s'.buckets = withBuckets.buckets := by
    have first := rounds.unchanged MetadataStore.buckets uploadRounds (by
      intro u member before after round
      obtain ⟨row, -, rfl⟩ := List.mem_map.mp member
      exact (importUpload_others round).1)
    have second := rounds.unchanged MetadataStore.buckets objectRounds (by
      intro row member before after round
      rw [importObject_ok round])
    exact first.trans second
  have objectsKept : s'.objects = middle.objects :=
    rounds.unchanged MetadataStore.objects uploadRounds (by
      intro u member before after round
      obtain ⟨row, -, rfl⟩ := List.mem_map.mp member
      exact (importUpload_others round).2.1)
  have noObjects : withBuckets.objects = ∅ :=
    rounds.unchanged MetadataStore.objects bucketRounds (by
      intro row member before after round
      rw [importBucket_ok round])
  have noSessions : middle.sessions = ∅ := by
    have first := rounds.unchanged MetadataStore.sessions objectRounds (by
      intro row member before after round
      rw [importObject_ok round])
    have second := rounds.unchanged MetadataStore.sessions bucketRounds (by
      intro row member before after round
      rw [importBucket_ok round])
    exact first.trans second
  have noParts : middle.parts = ∅ := by
    have first := rounds.unchanged MetadataStore.parts objectRounds (by
      intro row member before after round
      rw [importObject_ok round])
    have second := rounds.unchanged MetadataStore.parts bucketRounds (by
      intro row member before after round
      rw [importBucket_ok round])
    exact first.trans second
  constructor
  · intro name
    rw [bucketsKept]
    have found := rounds_table MetadataStore.buckets (fun _ m => m) bucketRounds rfl (by
      intro row before after round
      rw [importBucket_ok round]
      rfl) name
    rw [found]
    exact Option.map_id'
  · intro place
    rw [objectsKept]
    exact rounds_table MetadataStore.objects
      (fun place : VersionKey => ObjectMeta.restored place.vk) objectRounds noObjects (by
      intro row before after round
      rw [importObject_ok round]) place
  · exact importUploads_sessions uploadRounds noSessions
  · exact importUploads_parts owned uploadRounds noParts

end Whole

end FastS3.Daemon
