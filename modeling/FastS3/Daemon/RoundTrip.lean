import FastS3.Daemon.Completion
import FastS3.Daemon.Restored

namespace FastS3.Daemon

open Data Engine
open FastS3.Core (Bytes Error SseKind Vk vkNull)

/-! What an import gives back: the records, the reads and the completions.

The seed of the key encryption key is never exported, so a new directory has a seed of its own
and unwraps the keys of SSE-S3 differently.
-/

def reseeded (codec : Codec) (unwrap : Nat → Bytes → Option Bytes) : Codec :=
  { codec with unwrapSseS3 := unwrap }

def ObjectMeta.prescribed (vk : Option Vk) (m : ObjectMeta) : ObjectMeta :=
  { m with versionId := vk.filter fun v => v ≠ vkNull }

def ObjectMeta.sealedBySeed (m : ObjectMeta) : Bool :=
  m.sse.any fun sse => sse.kind = SseKind.sseS3

section Reads

variable (codec : Codec) (unwrap : Nat → Bytes → Option Bytes)

theorem sseReadDataKey_reseeded {sse : Core.SseInfo} (other : sse.kind ≠ .sseS3)
    (sseKey : Option Bytes) :
    sseReadDataKey (reseeded codec unwrap) sse sseKey = sseReadDataKey codec sse sseKey := by
  unfold sseReadDataKey
  cases kind : sse.kind with
  | sseC => rfl
  | sseS3 => exact absurd kind other
  | sseKms => rfl

variable (m : Core.ObjectMeta)

theorem readSseLoop_reseeded (version : Option Vk) (sse : Core.SseInfo) (dataKey : Bytes)
    (stop fuel pos : Nat) (out : Bytes) :
    readSseLoop (reseeded codec unwrap) { m with versionId := version } sse dataKey stop fuel pos
        out = readSseLoop codec m sse dataKey stop fuel pos out := by
  induction fuel generalizing pos out with
  | zero => rfl
  | succ fuel ih =>
    unfold readSseLoop
    simp only [ih]
    rfl

theorem getViewToMeta_reseeded {m : Core.ObjectMeta} (version : Option Vk)
    (plain : m.compressed = none)
    (readable : (∀ sse, m.sse = some sse → sse.kind ≠ .sseS3) ∨ unwrap = codec.unwrapSseS3)
    (start stop : Nat) (sseKey : Option Bytes) :
    getViewToMeta (reseeded codec unwrap) { m with versionId := version } start stop sseKey =
      getViewToMeta codec m start stop sseKey := by
  unfold getViewToMeta
  simp only [readSseLoop_reseeded]
  simp only [plain]
  cases sealing : m.sse with
  | none => rfl
  | some sse =>
    have sameKey : sseReadDataKey (reseeded codec unwrap) sse sseKey =
        sseReadDataKey codec sse sseKey := by
      rcases readable with other | same
      · exact sseReadDataKey_reseeded codec unwrap (other sse sealing) sseKey
      · rw [same]
        rfl
    simp only [sameKey]

def copyAt (m : Core.ObjectMeta) (now : Int) : Option Core.RestoreState :=
  m.restoreState.filter fun st =>
    m.restoreValid now && !(st.restoredInline.isNone && st.restoredExtents.isEmpty)

/-- The record that is read at a time: a restored copy stands for the archived data. -/
def viewAt (m : Core.ObjectMeta) (now : Int) : Core.ObjectMeta :=
  match copyAt m now with
  | none => m
  | some st =>
    { m with
      extents := st.restoredExtents
      inline := st.restoredInline
      compressed := none
      sse := none
      size := st.restoredSize }

theorem viewAt_cases (now : Int) :
    viewAt m now = m ∨ (viewAt m now).compressed = none ∧ (viewAt m now).sse = none := by
  unfold viewAt
  cases copyAt m now with
  | none => exact .inl rfl
  | some st => exact .inr ⟨rfl, rfl⟩

theorem viewAt_version (version : Option Vk) (now : Int) :
    viewAt { m with versionId := version } now = { viewAt m now with versionId := version } := by
  have same : copyAt { m with versionId := version } now = copyAt m now := rfl
  unfold viewAt
  rw [same]
  cases copyAt m now with
  | none => rfl
  | some st => rfl

theorem getToMeta_eq (start stop : Nat) (sseKey : Option Bytes) :
    getToMeta codec m start stop sseKey =
      lockNow >>= fun now => getViewToMeta codec (viewAt m now) start stop sseKey := by
  unfold getToMeta restorePlaintextView viewAt copyAt
  rw [bind_assoc]
  congr
  funext now
  cases m.restoreState with
  | none => rfl
  | some st =>
    by_cases valid : m.restoreValid now = true
    · cases inline : st.restoredInline with
      | some bytes => simp [valid, inline, Option.filter]
      | none =>
        cases extents : st.restoredExtents with
        | nil => simp [valid, inline, extents, Option.filter]
        | cons seg rest => simp [valid, inline, extents, Option.filter]
    · simp [valid, Option.filter]

theorem getToMeta_reseeded {m : Core.ObjectMeta} (version : Option Vk)
    (plain : m.compressed = none)
    (readable : (∀ sse, m.sse = some sse → sse.kind ≠ .sseS3) ∨ unwrap = codec.unwrapSseS3)
    (start stop : Nat) (sseKey : Option Bytes) :
    getToMeta (reseeded codec unwrap) { m with versionId := version } start stop sseKey =
      getToMeta codec m start stop sseKey := by
  rw [getToMeta_eq, getToMeta_eq]
  congr
  funext now
  rw [viewAt_version]
  apply getViewToMeta_reseeded
  · rcases viewAt_cases m now with whole | ⟨copied, -⟩
    · rw [whole]
      exact plain
    · exact copied
  · rcases readable with other | sameSeed
    · left
      rcases viewAt_cases m now with whole | ⟨-, opened⟩
      · rw [whole]
        exact other
      · rw [opened]
        simp
    · exact .inr sameSeed

end Reads

section Completions

variable {codec : Codec} {unwrap : Nat → Bytes → Option Bytes} {original imported : MetadataStore}

theorem uploadWriteKey_reseeded (session : Engine.MultipartSession)
    (readable : session.sseS3 = none ∨ unwrap = codec.unwrapSseS3) (sseKey : Option SseWriteKey) :
    uploadWriteKey (reseeded codec unwrap) session sseKey = uploadWriteKey codec session sseKey := by
  rcases readable with plain | same
  · unfold uploadWriteKey sessionS3WriteKey
    rw [plain]
    rfl
  · rw [same]
    rfl

theorem partContent_reseeded (archive : Bool) (dataKey : Option Bytes) (part : Nat × PartMeta) :
    partContent (reseeded codec unwrap) archive dataKey part =
      partContent codec archive dataKey part := by
  rfl

theorem restored_of_unlocked {session : MultipartSession} (noRetention : session.retention = none)
    (noHold : session.legalHold = none) : session.restored = session := by
  cases session
  simp only at noRetention noHold
  subst noRetention noHold
  rfl

theorem partsOf_eq_nil {store : MetadataStore} {uploadId : String} :
    store.partsOf uploadId = [] ↔ ∀ partNo, store.parts.lookup ⟨uploadId, partNo⟩ = none := by
  rw [List.eq_nil_iff_forall_not_mem]
  constructor
  · intro empty partNo
    cases stored : store.parts.lookup ⟨uploadId, partNo⟩ with
    | none => rfl
    | some part => exact absurd (mem_partsOf.mpr stored) (empty (partNo, part))
  · rintro missing ⟨partNo, part⟩ listed
    have stored := mem_partsOf.mp listed
    rw [missing partNo] at stored
    cases stored

theorem completeMultipart_restored (restored : Restored original imported) {req : CompleteRequest}
    {session : MultipartSession}
    (stored : original.sessions.lookup req.uploadId = some session)
    (noRetention : session.retention = none) (noHold : session.legalHold = none)
    (readable : session.sseS3 = none ∨ unwrap = codec.unwrapSseS3) :
    completeMultipart (reseeded codec unwrap) imported req = completeMultipart codec original req := by
  have back : imported.sessions.lookup req.uploadId = some session := by
    rw [restored.sessions, stored, Option.map_some, restored_of_unlocked noRetention noHold]
  have sameParts : listedPart imported = listedPart original := by
    funext uploadId cp
    unfold listedPart
    simp only [restored.parts]
  have sameEmpty : (imported.partsOf req.uploadId = []) = (original.partsOf req.uploadId = []) := by
    rw [partsOf_eq_nil, partsOf_eq_nil]
    simp only [restored.parts]
  have sameKey := uploadWriteKey_reseeded session.toEngine readable req.sseKey
  have sameContent : partContent (reseeded codec unwrap) = partContent codec := by
    funext archive dataKey part
    exact partContent_reseeded archive dataKey part
  unfold completeMultipart
  rw [back, stored]
  simp only [sameParts, sameEmpty, sameKey, sameContent, restored.buckets]

end Completions

end FastS3.Daemon
