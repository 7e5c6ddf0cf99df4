import FastS3.Daemon.RoundTrip

namespace FastS3.Daemon

open Data Engine
open FastS3.Core (Bytes Error SseInfo)

/-! Recovery from an exported file. -/

def readObject (codec : Codec) (store : MetadataStore) (place : VersionKey) (start stop : Nat)
    (sseKey : Option Bytes) : EngineM Bytes :=
  match store.objects.lookup place with
  | none =>
    let bucket := place.bucket
    let key := place.key
    throw (.notFound s!"object {bucket}/{key}")
  | some m => getToMeta codec m.toObjectMeta start stop sseKey

/-- A seed that serves a version as the old one does: any, unless the seed wraps its key. -/
def ServesObject (codec : Codec) (unwrap : Nat → Bytes → Option Bytes) (m : ObjectMeta) : Prop :=
  m.sealedBySeed = false ∨ unwrap = codec.unwrapSseS3

def ServesUpload (codec : Codec) (unwrap : Nat → Bytes → Option Bytes) (session : MultipartSession) :
    Prop :=
  session.sseS3 = none ∨ unwrap = codec.unwrapSseS3

def MultipartSession.Unlocked (session : MultipartSession) : Prop :=
  session.retention = none ∧ session.legalHold = none

structure Recovers (original imported : MetadataStore) : Prop where
  versions : ∀ place m, original.objects.lookup place = some m → m.compressed = none →
    imported.objects.lookup place = some (m.prescribed place.vk)
  parts : ∀ key part, original.parts.lookup key = some part →
    imported.parts.lookup key = some part
  sessions : ∀ uploadId session, original.sessions.lookup uploadId = some session →
    session.Unlocked → imported.sessions.lookup uploadId = some session
  reads : ∀ place m, original.objects.lookup place = some m → m.compressed = none →
    ∀ codec unwrap, ServesObject codec unwrap m → ∀ start stop sseKey,
      readObject (reseeded codec unwrap) imported place start stop sseKey =
        readObject codec original place start stop sseKey
  completions : ∀ req session, original.sessions.lookup req.uploadId = some session →
    session.Unlocked → ∀ codec unwrap, ServesUpload codec unwrap session →
      completeMultipart (reseeded codec unwrap) imported req = completeMultipart codec original req

theorem restored_of_uncompressed {m : ObjectMeta} (plain : m.compressed = none) (vk : Option Core.Vk) :
    m.restored vk = m.prescribed vk := by
  unfold ObjectMeta.restored ObjectMeta.prescribed
  rw [← plain]

variable {base64 : Base64} {layout : LayoutInfoDto} {configure : BucketDto → Except Error Unit}
  {others : Except Error Unit}

theorem metaImport_recovers {original imported : MetadataStore} (owned : original.PartsOwned)
    (run : runMetaImport base64 layout configure others (runMetaExport base64 layout original)
      MetadataStore.empty = .ok () imported) : Recovers original imported := by
  have restored := runMetaImport_restored owned run
  have versions : ∀ place m, original.objects.lookup place = some m → m.compressed = none →
      imported.objects.lookup place = some (m.prescribed place.vk) := by
    intro place m stored plain
    rw [restored.objects, stored, Option.map_some, restored_of_uncompressed plain]
  constructor
  · exact versions
  · intro key part stored
    rw [restored.parts, stored]
  · intro uploadId session stored unlocked
    rw [restored.sessions, stored, Option.map_some, restored_of_unlocked unlocked.1 unlocked.2]
  · intro place m stored plain codec unwrap serves start stop sseKey
    unfold readObject
    rw [versions place m stored plain, stored]
    apply getToMeta_reseeded codec unwrap _ plain
    rcases serves with plainKey | same
    · left
      intro sse sealing kind
      unfold ObjectMeta.sealedBySeed at plainKey
      rw [sealing] at plainKey
      simp [kind] at plainKey
    · exact .inr same
  · intro req session stored unlocked codec unwrap serves
    exact completeMultipart_restored restored stored unlocked.1 unlocked.2 serves

def sampleBase64 : Base64 where
  encode bytes := if bytes = [1, 2, 3] then "AQID" else "=" ++ S3.hexEncode bytes
  decode text := if text = "AQID" then some [1, 2, 3] else S3.hexDecode (text.toList.drop 1)
  decode_encode bytes := by
    by_cases sample : bytes = [1, 2, 3]
    · rw [if_pos sample, if_pos rfl, sample]
    · have other : "=" ++ S3.hexEncode bytes ≠ "AQID" := by
        intro same
        have first := congrArg (fun text : String => text.toList.head?) same
        simp [String.toList_append] at first
      rw [if_neg sample, if_neg other, String.toList_append]
      exact S3.hexDecode_hexEncode bytes

def sampleLayout : LayoutInfoDto := ⟨4194304, 16, 1⟩

def sampleObject : ObjectMeta where
  size := 3
  mtime := 1000
  extents := []
  inline := some [1, 2, 3]
  parts := []
  versionId := none
  isDeleteMarker := false
  sse := none
  compressed := none
  storageClass := none
  restoreState := none
  tags := []
  retention := none
  legalHold := false
  etag := List.replicate 16 0
  contentType := "text/plain"
  userMeta := []
  respHeaders := []
  checksum := none
  partChecksums := []
  requestedStorageClass := none

def sealedObject : ObjectMeta :=
  { sampleObject with sse := some ⟨.sseS3, 1, [7], [], [[]], []⟩ }

def packedObject : ObjectMeta :=
  { sampleObject with compressed := some ⟨3, 3, 3⟩ }

def lockedUpload : MultipartSession where
  bucket := "photos"
  key := "dog"
  contentType := "text/plain"
  userMeta := []
  respHeaders := []
  created := 1000
  completed := false
  finalEtag := List.replicate 16 0
  finalSize := 0
  finalMtime := 0
  tags := []
  checksumAlg := none
  sseKeyMd5 := none
  sseS3 := none
  retention := some ⟨.compliance, 9000⟩
  legalHold := some true
  requestedStorageClass := none
  sseKms := none

def sampleStore : MetadataStore where
  buckets := AList.singleton "photos" { Meta.BucketMeta.created with objects := 2, bytes := 6 }
  objects := (AList.singleton ⟨"photos", "cat", none⟩ sealedObject).insert
    ⟨"photos", "fox", none⟩ packedObject
  sessions := AList.singleton "upload" lockedUpload
  parts := ∅

def plainStore : MetadataStore where
  buckets := AList.singleton "photos" { Meta.BucketMeta.created with objects := 1, bytes := 3 }
  objects := AList.singleton ⟨"photos", "cat", none⟩ sampleObject
  sessions := AList.singleton "upload" { lockedUpload with retention := none, legalHold := none }
  parts := AList.singleton ⟨"upload", 1⟩ ⟨⟨3, [], some [1, 2, 3], none, none⟩,
    List.replicate 16 0, 1000, none⟩

theorem partsOwned_of_empty {store : MetadataStore} (empty : store.parts = ∅) :
    store.PartsOwned := by
  intro key part stored
  rw [empty] at stored
  cases stored

/-- A plain object and an upload with a part come back. -/
theorem metaImport_recovers_plain : ∃ imported,
    runMetaImport sampleBase64 sampleLayout (fun _ => .ok ()) (.ok ())
      (runMetaExport sampleBase64 sampleLayout plainStore) MetadataStore.empty = .ok () imported ∧
    Recovers plainStore imported := by
  obtain ⟨_, imported, run, -⟩ := exists_ok (fun _ => true) (runMetaImport sampleBase64 sampleLayout
    (fun _ => .ok ()) (.ok ()) (runMetaExport sampleBase64 sampleLayout plainStore))
    MetadataStore.empty (by decide +kernel)
  refine ⟨imported, run, metaImport_recovers ?_ run⟩
  intro key part stored
  have listed := AList.mem_lookup_iff.mp stored
  rw [plainStore, AList.singleton_entries, List.mem_singleton] at listed
  rw [(Sigma.mk.inj listed).1]
  rfl

/-- The object under a key that the seed wraps cannot be read any more, the compressed object has
lost the entry that tells so, and the upload has lost its lock. -/
theorem metaImport_loses : ∃ imported,
    runMetaImport sampleBase64 sampleLayout (fun _ => .ok ()) (.ok ())
      (runMetaExport sampleBase64 sampleLayout sampleStore) MetadataStore.empty = .ok () imported ∧
    okWith (fun bytes => bytes = [1, 2, 3])
      (readObject storingCodec sampleStore ⟨"photos", "cat", none⟩ 0 3 none (smallEngine none)) =
        true ∧
    okWith (fun _ => true) (readObject (reseeded storingCodec fun _ _ => none) imported
      ⟨"photos", "cat", none⟩ 0 3 none (smallEngine none)) = false ∧
    imported.objects.lookup ⟨"photos", "fox", none⟩ ≠ some (packedObject.prescribed none) ∧
    imported.sessions.lookup "upload" ≠ some lockedUpload := by
  obtain ⟨_, imported, run, -⟩ := exists_ok (fun _ => true) (runMetaImport sampleBase64 sampleLayout
    (fun _ => .ok ()) (.ok ()) (runMetaExport sampleBase64 sampleLayout sampleStore))
    MetadataStore.empty (by decide +kernel)
  have restored := runMetaImport_restored (partsOwned_of_empty rfl) run
  refine ⟨imported, run, by decide +kernel, ?_, ?_, ?_⟩
  · unfold readObject
    rw [restored.objects, show sampleStore.objects.lookup ⟨"photos", "cat", none⟩ =
      some sealedObject from rfl]
    decide +kernel
  · rw [restored.objects, show sampleStore.objects.lookup ⟨"photos", "fox", none⟩ =
      some packedObject from rfl]
    decide +kernel
  · rw [restored.sessions, show sampleStore.sessions.lookup "upload" = some lockedUpload from rfl]
    decide +kernel

end FastS3.Daemon
