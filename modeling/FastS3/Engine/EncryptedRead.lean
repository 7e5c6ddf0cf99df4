import FastS3.Engine.CompressedRead

namespace FastS3.Engine

open FastS3.Core Data Device EngineState

/-! Reads of encrypted records that are not compressed.

A read at an offset decrypts a window that is widened to the grid of chunks; a read of a range goes
from chunk to chunk.  Both return the bytes of the content.
-/

section Reads

variable {codec : Codec} {e : EngineState} {fail : Prop}

theorem window_append (done bytes : Bytes) (offset want : Nat) :
    ((done ++ bytes).drop offset).take want = (done.drop offset).take want ++
      slice bytes (offset + ((done.drop offset).take want).length - done.length)
        (min (want - ((done.drop offset).take want).length)
          (done.length + bytes.length - (offset + ((done.drop offset).take want).length))) := by
  rw [List.drop_append, List.take_append, List.length_drop, slice]
  congr 1
  rw [List.length_take, List.length_drop]
  by_cases full : want ≤ done.length - offset
  · have nothing : want - (done.length - offset) = 0 := by omega
    have none : min (want - min want (done.length - offset))
        (done.length + bytes.length - (offset + min want (done.length - offset))) = 0 := by omega
    rw [nothing, none, List.take_zero, List.take_zero]
  · have place : offset + min want (done.length - offset) - done.length = offset - done.length := by
      omega
    rw [place, List.take_eq_take_iff, List.length_drop]
    omega

theorem readRawAtSegment_located {seg : Segment} {bytes done : Bytes} {offset want : Nat}
    (uniform : e.Uniform) (located : Located e seg bytes) (faulty : e.Faulty → fail) :
    Ensures (Untouched e)
      (readRawAtSegment offset want (done.length, (done.drop offset).take want) seg)
      (fun progress s => progress = ((done ++ bytes).length, ((done ++ bytes).drop offset).take want) ∧
        Untouched e s)
      fun _ => fail := by
  have length := located.length
  rw [window_append, List.length_append, length]
  generalize out' : (done.drop offset).take want = out
  have size : out.length = min want (done.length - offset) := by
    rw [← out', List.length_take, List.length_drop]
  have nothing : ∀ count, count = 0 → ∀ place, out ++ slice bytes place count = out := by
    intro count zero place
    rw [zero, slice, List.take_zero, List.append_nil]
  unfold readRawAtSegment
  apply Ensures.ite
  · intro full
    apply Ensures.pure
    intro s same
    rw [nothing _ (by omega)]
    exact ⟨rfl, same⟩
  · intro more
    apply Ensures.ite
    · intro outside
      apply Ensures.pure
      intro s same
      rw [nothing _ (by omega)]
      exact ⟨rfl, same⟩
    · intro hit
      obtain ⟨di, localExtent, slot, disk, placed, entry, mounted, content⟩ := located.read uniform
      have sector : sectorSize ≤ e.chunkSize := by
        rw [uniform.chunkSize]
        decide
      apply Ensures.bindFact (extentDataOffset_reads placed entry)
      intro dataOff base
      subst base
      apply Ensures.bindFact (locateExtent_reads _ placed)
      intro place here
      subst here
      apply Ensures.bindFact ((readBatchedBlocks_reads mounted sector _ _).weakenFail fun _ => faulty)
      intro result read
      apply Ensures.pure
      intro s same
      refine ⟨?_, same⟩
      rw [read, content _ _ (by omega)]

def Holds (e : EngineState) (m : ObjectMeta) (stored : Bytes) : Prop :=
  match m.inline with
  | some inline => stored = inline
  | none => ∃ parts, List.Forall₂ (Located e) m.extents parts ∧ parts.flatten = stored

theorem Shown.holds {m : ObjectMeta} {stored : Bytes} (shown : Shown e m stored) : Holds e m stored := by
  rw [Shown] at shown
  rw [Holds]
  cases inline : m.inline with
  | some bytes =>
    rw [inline] at shown
    exact shown
  | none =>
    rw [inline] at shown
    obtain ⟨parts, legible, whole⟩ := shown
    exact ⟨parts, legible.imp fun _ _ one => one.located, whole⟩

theorem readRawAtSegments_located {segments : List Segment} {parts : List Bytes} (offset want : Nat)
    (uniform : e.Uniform) (located : List.Forall₂ (Located e) segments parts)
    (faulty : e.Faulty → fail) :
    Ensures (Untouched e) (segments.foldlM (readRawAtSegment offset want) (0, []))
      (fun progress s => progress.2 = slice parts.flatten offset want ∧ Untouched e s)
      fun _ => fail := by
  let inv := fun (done : List Segment) (progress : Nat × Bytes) (s : EngineState) =>
    progress = ((parts.take done.length).flatten.length,
      ((parts.take done.length).flatten.drop offset).take want) ∧ Untouched e s
  have loop : Ensures (inv [] (0, [])) (segments.foldlM (readRawAtSegment offset want) (0, []))
      (inv segments) fun _ => fail := by
    apply Ensures.foldlM inv
    intro done seg rest progress split
    apply Ensures.assuming
    intro known
    obtain ⟨bytes, here, segLocated⟩ := forall₂_next located split
    have grown : (parts.take (done ++ [seg]).length).flatten =
        (parts.take done.length).flatten ++ bytes := by
      rw [List.length_append, List.length_singleton, List.take_add_one, here, Option.toList_some,
        List.flatten_append, List.flatten_singleton]
    rw [known]
    apply (readRawAtSegment_located uniform segLocated faulty).weaken
    intro progress' s reached
    exact ⟨by rw [grown]; exact reached.1, reached.2⟩
  have started : ∀ s, Untouched e s → inv [] (0, []) s := fun s same => ⟨by simp, same⟩
  apply (loop.strengthen started).weaken
  intro progress s reached
  obtain ⟨known, same⟩ := reached
  refine ⟨?_, same⟩
  rw [known, located.length_eq, List.take_length, slice]

theorem readRawAtMeta_holds {m : ObjectMeta} {stored : Bytes} (uniform : e.Uniform)
    (holds : Holds e m stored) (size : m.size = stored.length) (faulty : e.Faulty → fail)
    (offset len : Nat) :
    Ensures (Viewed e) (readRawAtMeta m offset len)
      (fun bytes s => bytes = slice stored offset len ∧ Viewed e s) fun _ => fail := by
  have clipped : slice stored offset (min (m.size - offset) len) = slice stored offset len := by
    apply slice_min
    omega
  unfold readRawAtMeta
  apply Ensures.ite
  · intro empty
    apply Ensures.pure
    intro s seen
    refine ⟨?_, seen⟩
    have nothing : min len (stored.length - offset) = 0 := by omega
    exact (List.eq_nil_of_length_eq_zero (by rw [slice_length, nothing])).symm
  · intro _
    rw [Holds] at holds
    cases inline : m.inline with
    | some bytes =>
      rw [inline] at holds
      apply Ensures.pure
      intro s seen
      refine ⟨?_, seen⟩
      rw [← holds, clipped]
    | none =>
      rw [inline] at holds
      obtain ⟨parts, located, whole⟩ := holds
      apply viewed_of_untouched _ faulty
      intro s seen faulty'
      have loop := readRawAtSegments_located offset (min (m.size - offset) len)
        (seen.uniform uniform) (located.imp fun _ _ one => one.viewed seen) faulty'
      rw [whole, clipped] at loop
      apply Ensures.bind loop
      intro progress
      apply Ensures.pure
      intro t reached
      exact reached

theorem chunk_inside {start stop pos : Nat} (size : Nat) (reached : start ≤ pos) (more : pos < stop) :
    start / sseChunkSize * sseChunkSize ≤ pos / sseChunkSize * sseChunkSize ∧
      chunkEnd size (pos / sseChunkSize) ≤ min (divCeil stop sseChunkSize * sseChunkSize) size := by
  constructor
  · exact Nat.mul_le_mul_right _ (Nat.div_le_div_right reached)
  · have below : pos / sseChunkSize * sseChunkSize ≤ pos := Nat.div_mul_le_self _ _
    have next : pos / sseChunkSize + 1 ≤ divCeil stop sseChunkSize := by
      rw [divCeil, Nat.le_div_iff_mul_le (by decide), Nat.succ_mul]
      omega
    have reach := Nat.mul_le_mul_right sseChunkSize next
    rw [Nat.succ_mul] at reach
    rw [chunkEnd]
    omega

theorem readSseAtLoop_viewed (fail : Prop) {m : ObjectMeta} {sse : SseInfo} {dataKey stored content window : Bytes}
    (size : content.length = m.size) (unsealed : Unsealed codec dataKey sse stored content)
    {start stop : Nat} (inside : stop ≤ m.size)
    (cut : window = slice stored (start / sseChunkSize * sseChunkSize)
      (min (divCeil stop sseChunkSize * sseChunkSize) m.size - start / sseChunkSize * sseChunkSize))
    (fuel pos : Nat) (out : Bytes) (reached : start ≤ pos) (before : pos ≤ stop)
    (enough : stop - pos ≤ fuel) (sofar : out = slice content start (pos - start)) :
    Ensures (Viewed e)
      (readSseAtLoop codec m sse dataKey (start / sseChunkSize * sseChunkSize) window stop fuel pos out)
      (fun bytes s => bytes = slice content start (stop - start) ∧ Viewed e s) fun _ => fail := by
  induction fuel generalizing pos out with
  | zero =>
    obtain rfl : pos = stop := by omega
    exact Ensures.pure fun s seen => ⟨sofar, seen⟩
  | succ fuel ih =>
    unfold readSseAtLoop
    apply Ensures.ite
    · intro more
      have below : pos / sseChunkSize * sseChunkSize ≤ pos := Nat.div_mul_le_self _ _
      have above : pos < pos / sseChunkSize * sseChunkSize + sseChunkSize := by
        have := Nat.lt_div_mul_add (show 0 < sseChunkSize by decide) (a := pos)
        omega
      obtain ⟨first, last⟩ := chunk_inside m.size reached more
      simp only
      generalize pos / sseChunkSize = cno at below above first last ⊢
      obtain ⟨tag, plaintext, tagged, opens, opened⟩ := unsealed cno (by omega)
      have final : min (cno * sseChunkSize + sseChunkSize) m.size = chunkEnd content.length cno := by
        rw [chunkEnd, size]
      have clip : chunkEnd content.length cno = min (cno * sseChunkSize + sseChunkSize) m.size :=
        final.symm
      have chunk : slice window (cno * sseChunkSize - start / sseChunkSize * sseChunkSize)
          (chunkEnd content.length cno - cno * sseChunkSize) =
            (stored.take (chunkEnd content.length cno)).drop (cno * sseChunkSize) := by
        rw [← size] at last
        rw [cut, ← size, slice_slice _ (by omega), Nat.add_sub_of_le first, slice, List.drop_take]
      rw [final, chunk]
      apply Ensures.bindFact (decryptChunk_viewed tagged opens _ _)
      intro bytes read
      subst read
      rw [slice_chunk opened below (by omega)]
      apply ih
      · omega
      · omega
      · omega
      · rw [sofar]
        exact slice_joined _ reached
    · intro finished
      obtain rfl : pos = stop := by omega
      exact Ensures.pure fun s seen => ⟨sofar, seen⟩

theorem readSseAtMeta_viewed {m : ObjectMeta} {sse : SseInfo} {sseKey : Option Bytes}
    {dataKey stored content : Bytes} (uniform : e.Uniform) (holds : Holds e m stored)
    (size : content.length = m.size) (length : stored.length = content.length)
    (opens : KeyOpens codec sse sseKey dataKey) (unsealed : Unsealed codec dataKey sse stored content)
    (failing : e.Failing → fail) {offset len : Nat} (inside : offset + len ≤ m.size) :
    Ensures (Viewed e) (readSseAtMeta codec m sse sseKey offset len)
      (fun bytes s => bytes = slice content offset len ∧ Viewed e s) fun _ => fail := by
  have covered : offset / sseChunkSize * sseChunkSize ≤ offset := Nat.div_mul_le_self _ _
  unfold readSseAtMeta
  apply Ensures.bindFact (sseReadDataKey_viewed opens failing)
  intro key same
  subst same
  simp only
  apply Ensures.bindFact (readRawAtMeta_holds uniform holds (size.symm.trans length.symm)
    (fun faulty => failing (.inl faulty)) _ _)
  intro window cut
  have filled : window.length = min (divCeil (offset + len) sseChunkSize * sseChunkSize) m.size -
      offset / sseChunkSize * sseChunkSize := by
    rw [cut, slice_length]
    omega
  simp only [filled, ne_eq, not_true_eq_false, if_false]
  have start : ([] : Bytes) = slice content offset (offset - offset) := by
    rw [Nat.sub_self, slice, List.take_zero]
  have loop := readSseAtLoop_viewed (e := e) fail size unsealed inside cut len offset [] le_rfl
    (Nat.le_add_right _ _) (by omega) start
  rwa [Nat.add_sub_cancel_left] at loop

theorem unsealed_chunks {sse : SseInfo} {dataKey content : Bytes}
    (tags : sse.chunkTags = chunkTags codec dataKey sse.nonceBase content)
    (undoes : ∀ cno plaintext, codec.decryptChunk dataKey sse.nonceBase cno
      (codec.encryptChunk dataKey sse.nonceBase cno plaintext).1
      (codec.encryptChunk dataKey sse.nonceBase cno plaintext).2 = some plaintext)
    (lengths : ∀ cno chunk, (codec.encryptChunk dataKey sse.nonceBase cno chunk).1.length = chunk.length) :
    Unsealed codec dataKey sse (ciphertext codec dataKey sse.nonceBase content) content := by
  intro cno inside
  obtain ⟨chunk, _, plain, tagged, cut⟩ := sealed_chunk lengths inside
  have width : chunkEnd content.length cno - cno * sseChunkSize = chunk.length := by
    rw [plain, slice_length, chunkEnd]
    omega
  refine ⟨_, chunk, by rw [tags]; exact tagged, ?_, ?_⟩
  · rw [List.drop_take, width, ← slice, cut]
    exact undoes cno chunk
  · rw [width, List.take_length, plain, slice_length]
    apply slice_min
    omega

end Reads

/-- `read_at_meta`; the bytes are the part of the buffer that it fills. -/
def readAtMeta (codec : Codec) (m : ObjectMeta) (offset len : Nat) (sseKey : Option Bytes) :
    EngineM Bytes :=
  if offset ≥ m.size ∨ len = 0 then return []
  else
    let want := min (m.size - offset) len
    match m.compressed with
    | some _ => readCompressedMeta codec m offset (offset + want) sseKey
    | none =>
      match m.sse with
      | none => readRawAtMeta m offset want
      | some sse => readSseAtMeta codec m sse sseKey offset want

def restoredView (m : ObjectMeta) (st : RestoreState) : ObjectMeta :=
  { m with
    extents := st.restoredExtents
    inline := st.restoredInline
    compressed := none
    sse := none
    size := st.restoredSize }

def CopyHolds (e : EngineState) (m : ObjectMeta) (content : Bytes) : Prop :=
  ∀ st, m.restoreState = some st → ¬(st.restoredInline.isNone ∧ st.restoredExtents = []) →
    st.restoredSize = content.length ∧ Shown e (restoredView m st) content

/-- An encrypted record that is not compressed, with its content.  Decryption undoes encryption and
the ciphertext is as long as the plaintext. -/
structure EncryptedIn (codec : Codec) (e : EngineState) (m : ObjectMeta) (sse : SseInfo)
    (sseKey : Option Bytes) (dataKey content : Bytes) : Prop where
  uniform : e.Uniform
  uncompressed : m.compressed = none
  encrypted : m.sse = some sse
  size : content.length = m.size
  opens : KeyOpens codec sse sseKey dataKey
  tags : sse.chunkTags = chunkTags codec dataKey sse.nonceBase content
  undoes : ∀ cno plaintext, codec.decryptChunk dataKey sse.nonceBase cno
    (codec.encryptChunk dataKey sse.nonceBase cno plaintext).1
    (codec.encryptChunk dataKey sse.nonceBase cno plaintext).2 = some plaintext
  lengths : ∀ cno chunk, (codec.encryptChunk dataKey sse.nonceBase cno chunk).1.length = chunk.length
  shown : Shown e m (ciphertext codec dataKey sse.nonceBase content)
  copy : CopyHolds e m content

/-- A read returns the bytes, and fails only where a device or the metadata store does. -/
structure Returns (e : EngineState) (program : EngineM Bytes) (bytes : Bytes) : Prop where
  outcome : match program e with
    | .ok result _ => result = bytes
    | .error _ _ => e.Failing

section Records

variable {codec : Codec} {e : EngineState} {m : ObjectMeta} {sse : SseInfo} {sseKey : Option Bytes}
  {dataKey content : Bytes}

theorem Returns.of_viewed {program : EngineM Bytes} {bytes : Bytes}
    (viewed : Ensures (Viewed e) program (fun result s => result = bytes ∧ Viewed e s)
      fun _ => e.Failing) : Returns e program bytes := by
  have outcome := viewed.run e (Viewed.refl e)
  refine ⟨?_⟩
  cases run : program e with
  | ok result s =>
    rw [run] at outcome
    exact outcome.1
  | error reason s =>
    rw [run] at outcome
    exact outcome

theorem EncryptedIn.reads_window (given : EncryptedIn codec e m sse sseKey dataKey content)
    {offset len : Nat} (inside : offset + len ≤ m.size) :
    Ensures (Viewed e) (readSseAtMeta codec m sse sseKey offset len)
      (fun bytes s => bytes = slice content offset len ∧ Viewed e s) fun _ => e.Failing :=
  readSseAtMeta_viewed given.uniform given.shown.holds given.size (ciphertext_length given.lengths)
    given.opens (unsealed_chunks given.tags given.undoes given.lengths) (fun failing => failing) inside

theorem EncryptedIn.reads_at (given : EncryptedIn codec e m sse sseKey dataKey content)
    (offset len : Nat) :
    Ensures (Viewed e) (readAtMeta codec m offset len sseKey)
      (fun bytes s => bytes = slice content offset len ∧ Viewed e s) fun _ => e.Failing := by
  have size := given.size
  unfold readAtMeta
  apply Ensures.ite
  · intro empty
    apply Ensures.pure
    intro s seen
    refine ⟨?_, seen⟩
    have nothing : min len (content.length - offset) = 0 := by omega
    exact (List.eq_nil_of_length_eq_zero (by rw [slice_length, nothing])).symm
  · intro _
    have clipped : slice content offset (min (m.size - offset) len) = slice content offset len := by
      apply slice_min
      omega
    rw [given.uncompressed, given.encrypted, ← clipped]
    exact given.reads_window (by omega)

theorem lockNow_viewed : Ensures (Viewed e) lockNow (fun _ s => Viewed e s) fun _ => e.Failing := by
  refine ⟨fun s seen => ?_⟩
  change Viewed e { s with choices := s.choices.tail }
  refine ⟨?_, seen.contents, seen.records, seen.calm, seen.answered⟩
  rw [seen.rest]

theorem restorePlaintextView_viewed :
    Ensures (Viewed e) (restorePlaintextView m)
      (fun view s => (view = none ∨ ∃ st, m.restoreState = some st ∧
        ¬(st.restoredInline.isNone ∧ st.restoredExtents = []) ∧ view = some (restoredView m st)) ∧
        Viewed e s)
      fun _ => e.Failing := by
  unfold restorePlaintextView
  apply Ensures.bind lockNow_viewed
  intro now
  cases copy : m.restoreState with
  | none => exact Ensures.pure fun s seen => ⟨.inl rfl, seen⟩
  | some st =>
    apply Ensures.ite
    · intro _
      exact Ensures.pure fun s seen => ⟨.inl rfl, seen⟩
    · intro _
      apply Ensures.ite
      · intro _
        exact Ensures.pure fun s seen => ⟨.inl rfl, seen⟩
      · intro held
        exact Ensures.pure fun s seen => ⟨.inr ⟨st, rfl, held, by rw [restoredView, copy]⟩, seen⟩

theorem slice_range {size rangeStart rangeEnd : Nat} (whole : content.length = size) :
    slice content (min rangeStart size) (min rangeEnd size - min rangeStart size) =
      slice content rangeStart (rangeEnd - rangeStart) := by
  by_cases past : rangeStart ≤ size
  · rw [Nat.min_eq_left past]
    apply slice_min
    omega
  · rw [Nat.min_eq_right (by omega : size ≤ rangeStart)]
    have left : slice content size (min rangeEnd size - size) = [] :=
      List.eq_nil_of_length_eq_zero (by rw [slice_length]; omega)
    have right : slice content rangeStart (rangeEnd - rangeStart) = [] :=
      List.eq_nil_of_length_eq_zero (by rw [slice_length]; omega)
    rw [left, right]

theorem EncryptedIn.reads_own (given : EncryptedIn codec e m sse sseKey dataKey content)
    (rangeStart rangeEnd : Nat) :
    Ensures (Viewed e) (getViewToMeta codec m rangeStart rangeEnd sseKey)
      (fun bytes s => bytes = slice content rangeStart (rangeEnd - rangeStart) ∧ Viewed e s)
      fun _ => e.Failing := by
  rw [← slice_range given.size]
  unfold getViewToMeta
  apply Ensures.ite
  · intro empty
    apply Ensures.pure
    intro s seen
    refine ⟨?_, seen⟩
    have nothing : min rangeEnd m.size - min rangeStart m.size = 0 := by omega
    rw [nothing, slice, List.take_zero]
  · intro some
    rw [given.uncompressed, given.encrypted]
    apply Ensures.bindFact (sseReadDataKey_viewed given.opens fun failing => failing)
    intro key same
    subst same
    exact readSseLoop_viewed given.uniform given.shown given.size
      (unsealed_chunks given.tags given.undoes given.lengths) (fun faulty => .inl faulty)
      (Nat.min_le_right _ _) _ _ [] le_rfl (by omega) le_rfl
      (by rw [Nat.sub_self, slice, List.take_zero])

theorem EncryptedIn.reads_copy (given : EncryptedIn codec e m sse sseKey dataKey content)
    {st : RestoreState} (copy : m.restoreState = some st)
    (held : ¬(st.restoredInline.isNone ∧ st.restoredExtents = [])) (rangeStart rangeEnd : Nat) :
    Ensures (Viewed e) (getViewToMeta codec (restoredView m st) rangeStart rangeEnd sseKey)
      (fun bytes s => bytes = slice content rangeStart (rangeEnd - rangeStart) ∧ Viewed e s)
      fun _ => e.Failing := by
  obtain ⟨size, shown⟩ := given.copy st copy held
  have whole : content.length = (restoredView m st).size := size.symm
  rw [← slice_range whole]
  unfold getViewToMeta
  apply Ensures.ite
  · intro empty
    apply Ensures.pure
    intro s seen
    refine ⟨?_, seen⟩
    have nothing : min rangeEnd (restoredView m st).size - min rangeStart (restoredView m st).size = 0 := by
      omega
    rw [nothing, slice, List.take_zero]
  · intro some
    have reads := getRawToMeta_shown given.uniform shown (fun faulty => .inl faulty : e.Faulty → e.Failing)
      (min rangeStart (restoredView m st).size) (min rangeEnd (restoredView m st).size)
    rw [Nat.min_eq_left (Nat.min_le_right _ _), Nat.min_eq_left (Nat.min_le_right _ _)] at reads
    apply reads.weaken
    intro bytes s outcome
    refine ⟨?_, outcome.2⟩
    rw [outcome.1, slice, List.drop_take]

theorem EncryptedIn.reads_range (given : EncryptedIn codec e m sse sseKey dataKey content)
    (rangeStart rangeEnd : Nat) :
    Ensures (Viewed e) (getToMeta codec m rangeStart rangeEnd sseKey)
      (fun bytes s => bytes = slice content rangeStart (rangeEnd - rangeStart) ∧ Viewed e s)
      fun _ => e.Failing := by
  unfold getToMeta
  apply Ensures.bindFact restorePlaintextView_viewed
  intro view shown
  rcases shown with rfl | ⟨st, copy, held, rfl⟩
  · exact given.reads_own rangeStart rangeEnd
  · exact given.reads_copy copy held rangeStart rangeEnd

/-- The two reads of a record return the bytes of the content, from any place on. -/
theorem encryptedReads_agree (given : EncryptedIn codec e m sse sseKey dataKey content)
    (offset len : Nat) :
    Returns e (readAtMeta codec m offset len sseKey) (slice content offset len) ∧
      (offset + len ≤ m.size →
        Returns e (readSseAtMeta codec m sse sseKey offset len) (slice content offset len)) ∧
      Returns e (getToMeta codec m offset (offset + len) sseKey) (slice content offset len) := by
  have range := given.reads_range offset (offset + len)
  rw [Nat.add_sub_cancel_left] at range
  exact ⟨.of_viewed (given.reads_at offset len), fun inside => .of_viewed (given.reads_window inside),
    .of_viewed range⟩

end Records

def zeroSegments (places : List (Nat × Nat × Nat)) : List Segment :=
  places.map fun place => ⟨place.1, place.2.1, place.2.2, gridCrcs (List.replicate place.2.2 0)⟩

def plainZeroRecord (segments : List Segment) : ObjectMeta :=
  { zeroRecord segments with compressed := none }

theorem plainZeroRecord_encrypted (places : List (Nat × Nat × Nat))
    (inside : ∀ seg ∈ zeroSegments places,
      (∃ place, resolveExtent (smallEngine none).devices seg.extentId = some place) ∧
        seg.offset + seg.len ≤ (smallEngine none).mainSb.extentCapacity) :
    EncryptedIn taggingCodec (smallEngine none) (plainZeroRecord (zeroSegments places))
      (zeroSse (zeroSegments places)) (some []) [] (zeros (zeroSegments places)).flatten where
  uniform := (zeroRecord_sealed inside).uniform
  uncompressed := rfl
  encrypted := rfl
  size := rfl
  opens := rfl
  tags := rfl
  undoes := fun cno plaintext => by
    change (if plaintext = plaintext then some plaintext else none) = some plaintext
    rw [if_pos rfl]
  lengths := fun _ _ => rfl
  shown := by
    have given := zeroRecord_sealed inside
    refine ⟨zeros (zeroSegments places), ?_, given.split⟩
    have located := given.located
    rw [zeros, List.forall₂_map_right_iff] at located ⊢
    apply List.forall₂_same.mpr
    intro seg member
    refine ⟨List.forall₂_same.mp located seg member, fun _ => .inl ?_⟩
    obtain ⟨place, _, rfl⟩ := List.mem_map.mp member
    rfl
  copy := fun st none => nomatch none

/-- A window over the border of a chunk and of a segment. -/
theorem encryptedReads_agree_border :
    Returns (smallEngine none) (readAtMeta taggingCodec
        (plainZeroRecord (zeroSegments [(0, 0, 65000), (1, 0, 1000)])) 64000 1999 (some []))
        (slice (zeros (zeroSegments [(0, 0, 65000), (1, 0, 1000)])).flatten 64000 1999) := by
  have given := plainZeroRecord_encrypted [(0, 0, 65000), (1, 0, 1000)] (by
    rw [zeroSegments, List.map_cons, List.map_cons, List.map_nil]
    exact smallEngine_extents ⟨0, 0, 65000, _⟩ ⟨1, 0, 1000, _⟩ rfl rfl (by decide) (by decide))
  exact (encryptedReads_agree given 64000 1999).1

theorem smallEngine_calm (opened : Option OpenExtent) : ¬(smallEngine opened).Failing := by
  intro failing
  obtain ⟨disk, member, some⟩ | some := failing
  · obtain rfl := List.mem_singleton.mp member
    exact some rfl
  · exact some rfl

theorem readSseAtMeta_behind : errorWith (fun _ _ => true)
    (readSseAtMeta taggingCodec (plainZeroRecord (zeroSegments [])) (zeroSse (zeroSegments [])) (some [])
      0 1 (smallEngine none)) = true := by
  decide +kernel

/-- Without the clip of the callers a read of an empty object looks for a tag. -/
theorem readSseAtMeta_unclipped :
    ∃ (codec : Codec) (e : EngineState) (m : ObjectMeta) (sse : SseInfo) (sseKey : Option Bytes)
      (dataKey content : Bytes), EncryptedIn codec e m sse sseKey dataKey content ∧ ¬e.Failing ∧
        ¬Returns e (readSseAtMeta codec m sse sseKey 0 1) (slice content 0 1) := by
  have given := plainZeroRecord_encrypted [] nofun
  obtain ⟨_, _, run, _⟩ := exists_error _ _ _ readSseAtMeta_behind
  refine ⟨_, _, _, _, _, _, _, given, smallEngine_calm none, fun returns => smallEngine_calm none ?_⟩
  have outcome := returns.outcome
  rw [run] at outcome
  exact outcome

end FastS3.Engine
