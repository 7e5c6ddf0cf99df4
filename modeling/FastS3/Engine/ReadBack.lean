import FastS3.Engine.ReadObject
import FastS3.Engine.Stages

namespace FastS3.Engine

open FastS3.Core Data Device EngineState

/-! What a read of a stored record returns.

A record is plain, encrypted or compressed; each form has its own reader.  The reads of a
record change nothing but the faults and the choices that are still to come, and what they
return depends on the stored bytes alone.
-/

namespace EngineState

def Failing (e : EngineState) : Prop :=
  e.Faulty ∨ e.store.faults ≠ []

structure Viewed (e s : EngineState) : Prop where
  rest : s = { e with disks := s.disks, store := s.store, choices := s.choices }
  contents : s.disks.map BlockDevice.content = e.disks.map BlockDevice.content
  records : s.store = { e.store with faults := s.store.faults }
  calm : ¬e.Faulty → s.disks = e.disks
  answered : e.store.faults = [] → s.store.faults = []

namespace Viewed

variable {e s t : EngineState}

theorem refl (e : EngineState) : Viewed e e :=
  ⟨rfl, rfl, rfl, fun _ => rfl, fun none => none⟩

theorem fixed (seen : Viewed e s) : e.Fixed s := by
  have disks := congrArg List.length seen.contents
  rw [List.length_map, List.length_map] at disks
  rw [seen.rest]
  exact ⟨rfl, rfl, rfl, disks, rfl⟩

theorem faulty (seen : Viewed e s) (fault : s.Faulty) : e.Faulty := by
  by_contra quiet
  apply quiet
  rw [Faulty, ← seen.calm quiet]
  exact fault

theorem data (seen : Viewed e s) : s.data = e.data := by
  funext id position
  have devices := seen.fixed.devices
  have sb := seen.fixed.mainSb
  unfold EngineState.data
  rw [devices]
  cases resolveExtent e.devices id with
  | none => rfl
  | some place =>
    have pointwise := congrArg (fun contents => contents[place.1]?) seen.contents
    simp only [List.getElem?_map] at pointwise
    cases entry : e.devices[place.1]? with
    | none => simp only [entry]
    | some slot =>
      cases now : s.disks[place.1]? with
      | none =>
        cases before : e.disks[place.1]? with
        | none => simp only [entry, now, before]
        | some disk => simp [now, before] at pointwise
      | some disk =>
        cases before : e.disks[place.1]? with
        | none => simp [now, before] at pointwise
        | some old =>
          simp only [now, before, Option.map_some, Option.some.injEq] at pointwise
          simp only [entry, now, before, pointwise, sb]

theorem uniform (seen : Viewed e s) (uniform : e.Uniform) : s.Uniform :=
  uniform.of_fixed seen.fixed

theorem untouched (seen : Viewed e s) (same : Untouched s t) : Viewed e t := by
  have store : t.store = s.store := by rw [same.rest]
  refine ⟨?_, same.contents.trans seen.contents, ?_, ?_, ?_⟩
  · rw [same.rest, seen.rest]
  · rw [store, ← seen.records]
  · intro quiet
    have calm : ¬s.Faulty := fun fault => quiet (seen.faulty fault)
    rw [same.calm calm, seen.calm quiet]
  · intro none
    rw [store, seen.answered none]

end Viewed

theorem Located.viewed {e s : EngineState} {seg : Segment} {bytes : Bytes}
    (located : Located e seg bytes) (seen : Viewed e s) : Located s seg bytes where
  length := located.length
  placed := by
    rw [seen.fixed.devices]
    exact located.placed
  inside := by
    rw [seen.fixed.mainSb]
    exact located.inside
  content := by
    rw [seen.data]
    exact located.content

theorem HeaderRead.viewed {e s : EngineState} {id : Nat} {header : ExtentHeader}
    (onDisk : HeaderRead e id header) (seen : Viewed e s) : HeaderRead s id header := by
  obtain ⟨di, localExtent, slot, disk, placed, entry, mounted, decoded⟩ := onDisk
  have pointwise := congrArg (fun contents => contents[di]?) seen.contents
  simp only [List.getElem?_map, mounted, Option.map_some, Option.map_eq_some_iff] at pointwise
  obtain ⟨now, found, content⟩ := pointwise
  refine ⟨di, localExtent, slot, now, ?_, ?_, found, ?_⟩
  · rw [seen.fixed.devices, placed]
  · rw [seen.fixed.devices, entry]
  · rw [← decoded, BlockDevice.read, BlockDevice.read, content]

theorem Legible.viewed {e s : EngineState} {seg : Segment} {bytes : Bytes}
    (legible : Legible e seg bytes) (seen : Viewed e s) : Legible s seg bytes := by
  refine ⟨legible.located.viewed seen, fun verifies => ?_⟩
  have setting : s.verifyReads = e.verifyReads := by
    rw [seen.rest]
  rw [setting] at verifies
  rcases legible.checked verifies with crcs | ⟨empty, header, onDisk, checks⟩
  · exact .inl crcs
  · exact .inr ⟨empty, header, onDisk.viewed seen, checks⟩

end EngineState

section Reads

variable {codec : Codec} {e : EngineState} {fail : Prop}

theorem viewed_of_untouched {α : Type} {program : EngineM α} {fact : α → Prop}
    (reads : ∀ s, Viewed e s → (s.Faulty → fail) →
      Ensures (Untouched s) program (fun value t => fact value ∧ Untouched s t) fun _ => fail)
    (faulty : e.Faulty → fail) :
    Ensures (Viewed e) program (fun value s => fact value ∧ Viewed e s) fun _ => fail := by
  refine ⟨fun s seen => ?_⟩
  have outcome := (reads s seen fun fault => faulty (seen.faulty fault)).run s (Untouched.refl s)
  cases run : program s with
  | ok value t =>
    rw [run] at outcome
    exact ⟨outcome.1, seen.untouched outcome.2⟩
  | error reason t =>
    rw [run] at outcome
    exact outcome

def Shown (e : EngineState) (m : ObjectMeta) (stored : Bytes) : Prop :=
  match m.inline with
  | some inline => stored = inline
  | none => ∃ parts, List.Forall₂ (Legible e) m.extents parts ∧ parts.flatten = stored

theorem getRawToMeta_shown {m : ObjectMeta} {stored : Bytes} (uniform : e.Uniform)
    (shown : Shown e m stored) (faulty : e.Faulty → fail) (rangeStart rangeEnd : Nat) :
    Ensures (Viewed e) (getRawToMeta m rangeStart rangeEnd)
      (fun bytes s => bytes = (stored.take (min rangeEnd m.size)).drop (min rangeStart m.size) ∧
        Viewed e s) fun _ => fail := by
  unfold Shown at shown
  cases inline : m.inline with
  | some bytes =>
    rw [inline] at shown
    unfold getRawToMeta
    rw [inline]
    apply Ensures.ite
    · intro empty
      apply Ensures.pure
      intro s seen
      refine ⟨?_, seen⟩
      rw [List.drop_eq_nil_of_le (by rw [List.length_take]; omega)]
    · intro _
      apply Ensures.pure
      intro s seen
      refine ⟨?_, seen⟩
      rw [shown, slice, List.drop_take]
  | none =>
    rw [inline] at shown
    obtain ⟨parts, legible, split⟩ := shown
    apply viewed_of_untouched _ faulty
    intro s seen faulty'
    have reads := getRawToMeta_legible (seen.uniform uniform)
      (legible.imp fun _ _ one => one.viewed seen) faulty' inline rangeStart rangeEnd
    rwa [split] at reads

theorem readSegmentRaw_located {seg : Segment} {bytes : Bytes} (uniform : e.Uniform)
    (located : Located e seg bytes) (faulty : e.Faulty → fail) :
    Ensures (Viewed e) (readSegmentRaw seg) (fun raw s => raw = bytes ∧ Viewed e s)
      fun _ => fail := by
  apply viewed_of_untouched _ faulty
  intro s seen faulty'
  obtain ⟨di, localExtent, slot, disk, placed, entry, mounted, content⟩ :=
    (located.viewed seen).read (seen.uniform uniform)
  have sector : sectorSize ≤ s.chunkSize := by
    rw [(seen.uniform uniform).chunkSize]
    decide
  unfold readSegmentRaw
  apply Ensures.bindFact (extentDataOffset_reads placed entry)
  intro dataOff base
  subst base
  apply Ensures.bindFact (locateExtent_reads _ placed)
  intro place here
  subst here
  apply ((readBatchedBlocks_reads mounted sector _ _).weakenFail fun _ => faulty').weaken
  intro raw t outcome
  refine ⟨?_, outcome.2⟩
  have whole := content 0 seg.len (Nat.zero_add _).le
  rw [Nat.add_zero, slice_self located.length.symm] at whole
  rw [outcome.1, whole]

def KeyOpens (codec : Codec) (sse : SseInfo) (sseKey : Option Bytes) (dataKey : Bytes) : Prop :=
  match sse.kind with
  | .sseC => sseKey = some dataKey
  | .sseS3 => codec.unwrapSseS3 sse.kekId sse.wrappedDek = some dataKey
  | .sseKms => codec.unwrapKms sse.wrappedDek = .ok dataKey

theorem metaCall_viewed (failing : e.Failing → fail) :
    Ensures (Viewed e) metaCall (fun _ s => Viewed e s) fun _ => fail := by
  refine ⟨fun s seen => ?_⟩
  unfold metaCall
  cases fault : s.store.faults.headD none with
  | some reason =>
    simp only
    apply failing
    right
    intro none
    rw [seen.answered none] at fault
    cases fault
  | none =>
    simp only
    refine ⟨?_, seen.contents, ?_, seen.calm, ?_⟩
    · rw [seen.rest]
    · rw [seen.records]
    · intro none
      rw [seen.answered none]
      rfl

theorem sseReadDataKey_viewed {sse : SseInfo} {sseKey : Option Bytes} {dataKey : Bytes}
    (opens : KeyOpens codec sse sseKey dataKey) (failing : e.Failing → fail) :
    Ensures (Viewed e) (sseReadDataKey codec sse sseKey)
      (fun key s => key = dataKey ∧ Viewed e s) fun _ => fail := by
  unfold KeyOpens at opens
  unfold sseReadDataKey
  cases kind : sse.kind with
  | sseC =>
    rw [kind] at opens
    rw [opens]
    exact Ensures.pure fun s seen => ⟨rfl, seen⟩
  | sseS3 =>
    rw [kind] at opens
    apply Ensures.bind (metaCall_viewed failing)
    intro _
    rw [opens]
    exact Ensures.pure fun s seen => ⟨rfl, seen⟩
  | sseKms =>
    rw [kind] at opens
    rw [opens]
    exact Ensures.pure fun s seen => ⟨rfl, seen⟩

/-- Where chunk `cno` of `size` bytes ends. -/
def chunkEnd (size cno : Nat) : Nat :=
  min (cno * sseChunkSize + sseChunkSize) size

/-- Each chunk of the stored bytes opens under its tag to that chunk of the content. -/
def Unsealed (codec : Codec) (dataKey : Bytes) (sse : SseInfo) (stored content : Bytes) : Prop :=
  ∀ cno, cno * sseChunkSize < content.length → ∃ tag plaintext, sse.chunkTags[cno]? = some tag ∧
    codec.decryptChunk dataKey sse.nonceBase cno
      ((stored.take (chunkEnd content.length cno)).drop (cno * sseChunkSize)) tag =
        some plaintext ∧
    plaintext.take (chunkEnd content.length cno - cno * sseChunkSize) =
      slice content (cno * sseChunkSize) (chunkEnd content.length cno - cno * sseChunkSize)

theorem decryptChunk_viewed {sse : SseInfo} {dataKey tag ciphertext plaintext : Bytes} {cno : Nat}
    (tagged : sse.chunkTags[cno]? = some tag)
    (opens : codec.decryptChunk dataKey sse.nonceBase cno ciphertext tag = some plaintext)
    (missing failure : Error) :
    Ensures (Viewed e) (decryptChunk codec dataKey sse cno ciphertext missing failure)
      (fun bytes s => bytes = plaintext ∧ Viewed e s) fun _ => fail := by
  unfold decryptChunk
  simp only [tagged, opens]
  exact Ensures.pure fun s seen => ⟨rfl, seen⟩

theorem slice_chunk {content plaintext : Bytes} {cno pos taken : Nat}
    (opened : plaintext.take (chunkEnd content.length cno - cno * sseChunkSize) =
      slice content (cno * sseChunkSize) (chunkEnd content.length cno - cno * sseChunkSize))
    (above : cno * sseChunkSize ≤ pos) (inside : pos + taken ≤ chunkEnd content.length cno) :
    slice plaintext (pos - cno * sseChunkSize) taken = slice content pos taken := by
  have fits : pos - cno * sseChunkSize + taken ≤
      chunkEnd content.length cno - cno * sseChunkSize := by omega
  have first : slice (plaintext.take (chunkEnd content.length cno - cno * sseChunkSize))
      (pos - cno * sseChunkSize) taken = slice plaintext (pos - cno * sseChunkSize) taken := by
    rw [slice, slice, List.drop_take, List.take_take, Nat.min_eq_left (by omega)]
  rw [← first, opened, slice_slice _ fits]
  congr 1
  omega

theorem readSseLoop_viewed {m : ObjectMeta} {sse : SseInfo} {dataKey stored content : Bytes}
    (uniform : e.Uniform) (shown : Shown e m stored) (size : content.length = m.size)
    (unsealed : Unsealed codec dataKey sse stored content) (faulty : e.Faulty → fail)
    {start stop : Nat} (inside : stop ≤ m.size) (fuel pos : Nat) (out : Bytes)
    (reached : start ≤ pos) (before : pos ≤ stop) (enough : stop - pos ≤ fuel)
    (sofar : out = slice content start (pos - start)) :
    Ensures (Viewed e) (readSseLoop codec m sse dataKey stop fuel pos out)
      (fun bytes s => bytes = slice content start (stop - start) ∧ Viewed e s) fun _ => fail := by
  induction fuel generalizing pos out with
  | zero =>
    obtain rfl : pos = stop := by omega
    exact Ensures.pure fun s seen => ⟨sofar, seen⟩
  | succ fuel ih =>
    unfold readSseLoop
    apply Ensures.ite
    · intro more
      have below : pos / sseChunkSize * sseChunkSize ≤ pos := Nat.div_mul_le_self _ _
      have above : pos < pos / sseChunkSize * sseChunkSize + sseChunkSize := by
        have := Nat.lt_div_mul_add (show 0 < sseChunkSize by decide) (a := pos)
        omega
      simp only
      generalize pos / sseChunkSize = cno at below above ⊢
      obtain ⟨tag, plaintext, tagged, opens, opened⟩ := unsealed cno (by omega)
      have final : min (cno * sseChunkSize + sseChunkSize) m.size = chunkEnd content.length cno := by
        rw [chunkEnd, size]
      have clip : chunkEnd content.length cno = min (cno * sseChunkSize + sseChunkSize) m.size :=
        final.symm
      rw [final]
      apply Ensures.bindFact (getRawToMeta_shown uniform shown faulty _ _)
      intro ciphertext raw
      rw [Nat.min_eq_left (by omega : chunkEnd content.length cno ≤ m.size),
        Nat.min_eq_left (by omega : cno * sseChunkSize ≤ m.size)] at raw
      subst raw
      apply Ensures.bindFact (decryptChunk_viewed tagged opens _ _)
      intro bytes read
      subst read
      rw [slice_chunk opened below (by omega)]
      apply ih
      · omega
      · omega
      · omega
      · rw [sofar]
        exact slice_joined _ reached
    · intro finished
      obtain rfl : pos = stop := by omega
      exact Ensures.pure fun s seen => ⟨sofar, seen⟩

end Reads

end FastS3.Engine
