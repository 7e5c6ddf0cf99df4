import FastS3.Engine.WriterInvariant

namespace FastS3.Engine

open Alloc FastS3.Core Data Device EngineState

/-! What is written through the extent writer is read back.

The invariant of the writer is carried through the feeding loop, over the chunks of the
stream and through the end of the stream, for every way to cut the stream into chunks.
-/

section Stream

variable {e₀ e e' : EngineState}

variable {fed data : Bytes} {w w' : ExtentWriter} {front front' : Front} {oe : OpenExtent}

/-- The loop takes all bytes: a round without progress empties the buffer, and the
next one takes a byte. -/
theorem feedLoop_ready {fuel : Nat} (ready : Ready e₀ front fed w e)
    (enough : 2 * data.length ≤ fuel + if w.acc = [] then 1 else 0)
    (run : ExtentWriter.feedLoop fuel w data e = .ok w' e') :
    Ready e₀ front (fed ++ data) w' e' := by
  induction fuel generalizing w e fed data with
  | zero =>
    cases data with
    | nil =>
      obtain ⟨rfl, rfl⟩ := pure_eq_ok.mp run
      rwa [List.append_nil]
    | cons byte rest =>
      rw [List.length_cons] at enough
      split at enough <;> omega
  | succ fuel ih =>
    cases data with
    | nil =>
      obtain ⟨rfl, rfl⟩ := pure_eq_ok.mp run
      rwa [List.append_nil]
    | cons byte rest =>
      simp only [ExtentWriter.feedLoop, bind_eq_ok, Prod.exists] at run
      obtain ⟨w₁, later, middle, round, run⟩ := run
      obtain ⟨taken, split, sound, progress⟩ :=
        feedRound_sound ready (List.cons_ne_nil byte rest) round
      have length := congrArg List.length split
      rw [List.length_append] at length
      rw [split, ← List.append_assoc]
      apply ih (.inr sound) _ run
      rcases progress with some | emptied
      · have positive := List.length_pos_iff.mpr some
        split at enough <;> omega
      · rw [if_neg emptied.1] at enough
        rw [if_pos emptied.2]
        omega

/-- Two writers that have laid out the same and buffer the same. -/
structure SameLayout (w w' : ExtentWriter) : Prop where
  capacity : w'.capacity = w.capacity
  acc : w'.acc = w.acc
  started : w'.started = w.started
  segPartial : w'.segPartial = w.segPartial
  segFill : w'.segFill = w.segFill
  segCrcs : w'.segCrcs = w.segCrcs
  segOffset : w'.segOffset = w.segOffset
  segWritten : w'.segWritten = w.segWritten
  segments : w'.segments = w.segments

theorem Sound.refront (sound : Sound e₀ front fed w e) (same : SameLayout w w')
    (fronted : Fronted w' front') : Sound e₀ front' fed w' e := by
  obtain ⟨parts, cur, closed, split, whole, position⟩ := sound.content
  refine ⟨⟨sound.origin, sound.fixed, sound.tidy, sound.bits, fronted,
    same.started.trans sound.started, same.capacity.trans sound.capacity⟩,
    same.acc ▸ sound.block, parts, cur, same.segments ▸ closed, same.acc ▸ split, whole, ?_⟩
  cases opened : e.curOpen with
  | none =>
    rw [opened] at position
    exact ⟨position.1, same.acc.trans position.2⟩
  | some oe =>
    rw [opened] at position
    obtain ⟨current, fits, room⟩ := position
    rw [same.acc, same.capacity]
    refine ⟨⟨?_, ?_, ?_, ?_, ?_, ?_, ?_⟩, fits, room⟩
    · rw [same.segOffset]
      exact current.mark
    · rw [same.segWritten]
      exact current.written
    · rw [← current.crcs, closeGrid_segCrcs, closeGrid_segCrcs, same.segFill, same.segCrcs,
        same.segPartial]
    · rw [same.segFill, same.segPartial]
      exact current.full
    · rw [same.segOffset]
      exact current.aligned
    · rw [same.segOffset]
      exact current.above
    · rw [same.segOffset]
      exact current.content

theorem Unstarted.refront (unstarted : Unstarted w front) (same : SameLayout w w')
    (fronted : Fronted w' front') :
    Unstarted w' front' where
  fronted := fronted
  started := same.started.trans unstarted.started
  acc := same.acc.trans unstarted.acc
  segments := same.segments.trans unstarted.segments
  segOffset := same.segOffset.trans unstarted.segOffset
  segWritten := same.segWritten.trans unstarted.segWritten
  segCrcs := same.segCrcs.trans unstarted.segCrcs
  segFill := same.segFill.trans unstarted.segFill

/-- The writer between two calls: `fed` has come out of the stages in front. -/
inductive Streamed (e₀ : EngineState) (front : Front) (fed : Bytes) (w : ExtentWriter)
    (e : EngineState) : Prop where
  | idle (nothing : fed = []) (same : e₀ = e) (tidy : e.Tidy) (unstarted : Unstarted w front)
      (capacity : w.capacity = 0 ∨ w.capacity = e.mainSb.extentCapacity)
  | running (some : fed ≠ []) (sound : Sound e₀ front fed w e)

theorem Streamed.fronted (streamed : Streamed e₀ front fed w e) : Fronted w front := by
  cases streamed with
  | idle _ _ _ unstarted _ => exact unstarted.fronted
  | running _ sound => exact sound.fronted

theorem Streamed.refront (streamed : Streamed e₀ front fed w e) (same : SameLayout w w')
    (fronted : Fronted w' front') : Streamed e₀ front' fed w' e := by
  cases streamed with
  | idle nothing origin tidy unstarted capacity =>
    exact .idle nothing origin tidy (unstarted.refront same fronted)
      (by rw [same.capacity]; exact capacity)
  | running some sound => exact .running some (sound.refront same fronted)

theorem feedBytes_ready
    (ready : Ready e₀ front fed
      (if w.capacity = 0 then { w with capacity := e.mainSb.extentCapacity } else w) e)
    (run : w.feedBytes data e = .ok w' e') : Ready e₀ front (fed ++ data) w' e' := by
  simp only [ExtentWriter.feedBytes, bind_eq_ok, get_eq_ok] at run
  obtain ⟨_, _, ⟨rfl, rfl⟩, run⟩ := run
  exact feedLoop_ready ready (Nat.le_add_right _ _) run

theorem Streamed.ready (streamed : Streamed e₀ front fed w e) :
    Ready e₀ front fed
      (if w.capacity = 0 then { w with capacity := e.mainSb.extentCapacity } else w) e := by
  cases streamed with
  | idle nothing same tidy unstarted capacity =>
    have fronted := unstarted.fronted
    left
    refine ⟨nothing, same, tidy, ?_, ?_⟩
    · split
      · exact ⟨fronted.of_front rfl (by simp only [ExtentWriter.front]), unstarted.2, unstarted.3, unstarted.4, unstarted.5,
          unstarted.6, unstarted.7, unstarted.8⟩
      · exact unstarted
    · split
      · rfl
      · next set => exact capacity.resolve_left set
  | running some sound =>
    have positive := sound.tidy.uniform.capacity.2.2.1
    have set : w.capacity ≠ 0 := by
      rw [sound.capacity]
      omega
    rw [if_neg set]
    exact .inr sound

theorem feedBytes_streamed (streamed : Streamed e₀ front fed w e)
    (run : w.feedBytes data e = .ok w' e') : Streamed e₀ front (fed ++ data) w' e' := by
  have ready := streamed.ready
  by_cases nothing : fed ++ data = []
  · -- no byte has been fed and none comes
    obtain ⟨rfl, rfl⟩ := List.append_eq_nil_iff.mp nothing
    simp only [ExtentWriter.feedBytes, bind_eq_ok, get_eq_ok, ExtentWriter.feedLoop,
      pure_eq_ok] at run
    obtain ⟨_, _, ⟨rfl, rfl⟩, rfl, rfl⟩ := run
    rcases ready with idle | sound
    · obtain ⟨_, same, tidy, unstarted, capacity⟩ := idle
      exact .idle rfl same tidy unstarted (.inr capacity)
    · cases streamed with
      | idle _ _ _ unstarted _ =>
        have begun := sound.started
        split at begun
        · exact absurd begun (by simp [unstarted.started])
        · exact absurd begun (by simp [unstarted.started])
      | running some _ => exact absurd rfl some
  · rcases feedBytes_ready ready run with idle | sound
    · exact absurd idle.1 nothing
    · exact .running nothing sound

def plainFront (size : Nat) : Front :=
  ⟨none, none, size, 0, false⟩

theorem feed_plain {codec : Codec} {size : Nat} (fronted : Fronted w (plainFront size))
    (data : Bytes) :
    w.feed codec data =
      if w.size + data.length > maxObjectSize then
        throw (.invalidArgument "object exceeds 5TiB limit")
      else ({ w with size := w.size + data.length } : ExtentWriter).feedBytes data := by
  simp only [ExtentWriter.feed, ExtentWriter.feedStream, fronted.compression, fronted.sse, plainFront]

theorem feed_streamed {codec : Codec} (streamed : Streamed e₀ (plainFront fed.length) fed w e)
    (run : w.feed codec data e = .ok w' e') :
    Streamed e₀ (plainFront (fed ++ data).length) (fed ++ data) w' e' := by
  have fronted := streamed.fronted
  rw [feed_plain fronted] at run
  split at run
  · cases throw_eq_ok.mp run
  apply feedBytes_streamed (streamed.refront _ _) run
  · exact ⟨rfl, rfl, rfl, rfl, rfl, rfl, rfl, rfl, rfl⟩
  · refine ⟨fronted.1, ?_⟩
    rw [List.length_append]
    exact congrArg (fun front => { front with size := front.size + data.length }) fronted.same

theorem Sound.pending (sound : Sound e₀ front fed w e) (opened : e.curOpen = some oe)
    (empty : w.acc = []) : Pending e₀ front fed True w e oe := by
  obtain ⟨parts, cur, closed, split, whole, position⟩ := sound.content
  rw [opened] at position
  obtain ⟨current, fits, room⟩ := position
  rw [empty, List.append_nil] at split
  exact ⟨sound.toRunning, opened, empty, parts, cur, closed, split, current, (room empty).le,
    fun _ => whole⟩

theorem flushAcc_empty (empty : w.acc = []) (run : w.flushAcc e = .ok w' e') : w = w' ∧ e = e' := by
  simpa only [ExtentWriter.flushAcc, empty, if_true, pure_eq_ok] using run

def Finished (e₀ : EngineState) (front : Front) (fed : Bytes) (w : ExtentWriter) (e : EngineState) :
    Prop :=
  e₀.Fixed e ∧ Fronted w front ∧ ∃ parts, Laid e₀ e w.segments parts ∧ parts.flatten = fed

theorem Finished.of_silent {counted : Nat} (finished : Finished e₀ front fed w e)
    (silent : Silent e e') : Finished e₀ front fed { w with liveCounted := counted } e' := by
  obtain ⟨fixed, fronted, parts, laid, split⟩ := finished
  exact ⟨fixed.trans silent.fixed, ⟨fronted.1, fronted.2⟩, parts,
    laid.of_kept silent.fixed fun seg _ => by rw [silent.data], split⟩

theorem Sound.finished (sound : Sound e₀ front fed w e) (none : e.curOpen = none) :
    Finished e₀ front fed w e := by
  obtain ⟨parts, cur, closed, split, _, position⟩ := sound.content
  rw [none] at position
  obtain ⟨rfl, empty⟩ := position
  rw [empty, List.append_nil, List.append_nil] at split
  exact ⟨sound.fixed, sound.fronted, parts, closed.toLaid, split⟩

theorem closeSegment_finished {whole : Prop} (pending : Pending e₀ front fed whole w e oe)
    (run : w.closeSegment e = .ok w' e') : Finished e₀ front fed w' e' := by
  obtain ⟨segments, _, _, chunkSize, front', _, _, _⟩ := closeGrid_kept w
  simp only [ExtentWriter.closeSegment, bind_eq_ok, get_eq_ok] at run
  obtain ⟨_, _, ⟨rfl, rfl⟩, run⟩ := run
  simp only [pending.opened, pure_eq_ok] at run
  obtain ⟨rfl, rfl⟩ := run
  obtain ⟨parts, laid, split⟩ := pending.laid
  rw [← segments] at laid
  exact ⟨pending.fixed, ⟨chunkSize.trans pending.fronted.1, front'.trans pending.fronted.2⟩, parts,
    laid, split⟩

theorem closeSegment_none (none : e.curOpen = none) (run : w.closeSegment e = .ok w' e') :
    w = w' ∧ e = e' := by
  simp only [ExtentWriter.closeSegment, bind_eq_ok, get_eq_ok] at run
  obtain ⟨_, _, ⟨rfl, rfl⟩, run⟩ := run
  simpa only [none, pure_eq_ok] using run

theorem endPending_finished {w'' : ExtentWriter} {whole : Prop} {middle : EngineState}
    (pending : Pending e₀ front fed whole w e oe) (ending : w.endIfExactlyFull e = .ok w' middle)
    (closing : w'.closeSegment middle = .ok w'' e') : Finished e₀ front fed w'' e' := by
  simp only [ExtentWriter.endIfExactlyFull, bind_eq_ok, get_eq_ok] at ending
  obtain ⟨_, _, ⟨rfl, rfl⟩, ending⟩ := ending
  simp only [pending.opened] at ending
  split at ending
  · obtain ⟨sound, _, none⟩ := endSegment_sound pending ending
    obtain ⟨rfl, rfl⟩ := closeSegment_none none closing
    exact sound.finished none
  · obtain ⟨rfl, rfl⟩ := pure_eq_ok.mp ending
    exact closeSegment_finished pending closing

theorem finishBytes_finished (sound : Sound e₀ front fed w e) (run : w.finishBytes e = .ok w' e') :
    Finished e₀ front fed w' e' := by
  simp only [ExtentWriter.finishBytes, bind_eq_ok] at run
  obtain ⟨w₁, flushed, flushing, w₂, ended, ending, w₃, closed, closing, run⟩ := run
  obtain ⟨silent, rfl⟩ := catchUpLive_silent run
  refine Finished.of_silent ?_ silent
  cases opened : e.curOpen with
  | none =>
    have empty : w.acc = [] := by
      obtain ⟨_, _, _, _, _, position⟩ := sound.content
      rw [opened] at position
      exact position.2
    obtain ⟨rfl, rfl⟩ := flushAcc_empty empty flushing
    simp only [ExtentWriter.endIfExactlyFull, bind_eq_ok, get_eq_ok] at ending
    obtain ⟨_, _, ⟨rfl, rfl⟩, ending⟩ := ending
    simp only [opened, pure_eq_ok] at ending
    obtain ⟨rfl, rfl⟩ := ending
    obtain ⟨rfl, rfl⟩ := closeSegment_none opened closing
    exact sound.finished opened
  | some oe =>
    by_cases empty : w.acc = []
    · obtain ⟨rfl, rfl⟩ := flushAcc_empty empty flushing
      exact endPending_finished (sound.pending opened empty) ending closing
    · obtain ⟨oe', pending, _, _⟩ := flushAcc_pending sound opened empty flushing
      exact endPending_finished pending ending closing

end Stream

def writeStream (codec : Codec) (etagMode : EtagMode) (chunks : List Bytes) :
    EngineM StreamWriteOutcome := do
  let e ← get
  let w ← ExtentWriter.new e.chunkSize etagMode none none 0
  let w ← chunks.foldlM (fun w data => w.feed codec data) w
  w.finish codec

/-- The input is stored in separate aligned segments above the old watermarks and is
read back from them.  A read fails only on a device fault. -/
structure RoundTrip (e e' : EngineState) (input : Bytes) (outcome : StreamWriteOutcome) :
    Prop where
  disjoint : outcome.segments.Pairwise fun left right => left.key.Disjoint right.key
  aligned : ∀ seg ∈ outcome.segments, sectorSize ∣ seg.offset
  above : ∀ seg ∈ outcome.segments, e.Above seg.extentId seg.offset
  inside : ∀ seg ∈ outcome.segments, seg.offset + seg.len ≤ e.mainSb.extentCapacity
  total : (outcome.segments.map Segment.len).sum = input.length
  size : outcome.size = input.length
  stored : ∃ parts, parts.flatten = input ∧
    List.Forall₂ (fun seg bytes => bytes.length = seg.len ∧
      readArea e'.data seg.extentId seg.offset seg.len = bytes ∧ seg.crcs = gridCrcs bytes)
      outcome.segments parts
  reads : ∀ (m : ObjectMeta) (rangeStart rangeEnd : Nat), m.extents = outcome.segments →
    m.inline = none → m.size = outcome.size →
    match getRawToMeta m rangeStart rangeEnd e' with
    | .ok bytes _ => bytes = (input.take rangeEnd).drop rangeStart
    | .error _ _ => e'.Faulty

section

variable {e e' : EngineState}

variable {parts : List Bytes} {outcome : StreamWriteOutcome} {codec : Codec} {w : ExtentWriter}

theorem Laid.disjoint {e₀ : EngineState} {segments : List Segment}
    (laid : Laid e₀ e segments parts) :
    segments.Pairwise fun left right => left.key.Disjoint right.key := by
  have apart := List.pairwise_map.mp laid.extents
  exact apart.imp fun different => .inl different

theorem Laid.total {e₀ : EngineState} {segments : List Segment} (laid : Laid e₀ e segments parts) :
    (segments.map Segment.len).sum = parts.flatten.length := by
  have lengths : segments.map Segment.len = parts.map List.length := by
    rw [← List.forall₂_eq_eq_eq, List.forall₂_map_left_iff, List.forall₂_map_right_iff]
    exact laid.stored.imp fun seg bytes stored => stored.length.symm
  rw [lengths, List.length_flatten]

theorem Laid.roundTrip {input : Bytes} (uniform : e'.Uniform) (fixed : e.Fixed e')
    (laid : Laid e e' outcome.segments parts) (split : parts.flatten = input)
    (size : outcome.size = input.length) :
    RoundTrip e e' input outcome where
  disjoint := laid.disjoint
  aligned := laid.aligned
  above := laid.above
  inside := by
    intro seg member
    obtain ⟨i, within, rfl⟩ := List.getElem_of_mem member
    have stored := laid.stored.get within (laid.stored.length_eq ▸ within)
    rw [← fixed.mainSb]
    exact stored.inside
  total := by rw [laid.total, split]
  size := size
  stored := ⟨parts, split, laid.stored.imp fun seg bytes stored =>
    ⟨stored.length, stored.content, stored.crcs⟩⟩
  reads := by
    intro m rangeStart rangeEnd extents inline whole
    have reads := getRawToMeta_reads uniform (extents ▸ laid.stored) inline
      (by rw [whole, size, split]) rangeStart rangeEnd
    have outcome := reads.run e' (Untouched.refl e')
    rw [split] at outcome
    cases run : getRawToMeta m rangeStart rangeEnd e' with
    | ok bytes after =>
      rw [run] at outcome
      exact outcome.1
    | error reason after =>
      rw [run] at outcome
      exact outcome

theorem finish_ok (run : w.finish codec e = .ok outcome e') :
    ∃ w₁ e₁ w₂ e₂ w₃ e₃, w.finishCompression codec e = .ok w₁ e₁ ∧
      w₁.finishSse codec e₁ = .ok w₂ e₂ ∧ w₂.finishBytes e₂ = .ok w₃ e₃ ∧ Silent e₃ e' ∧
      outcome.segments = w₃.segments ∧ outcome.size = w₃.size := by
  simp only [ExtentWriter.finish, bind_eq_ok, get_eq_ok] at run
  obtain ⟨w₁, e₁, packed, w₂, e₂, encrypted, w₃, e₃, finished, _, _, ⟨rfl, rfl⟩, run⟩ := run
  refine ⟨w₁, e₁, w₂, e₂, w₃, e₃, packed, encrypted, finished, ?_⟩
  split at run
  · simp only [bind_eq_ok, pure_eq_ok] at run
    obtain ⟨_, _, flushed, rfl, rfl⟩ := run
    exact ⟨fsync_silent flushed, rfl, rfl⟩
  · obtain ⟨rfl, rfl⟩ := pure_eq_ok.mp run
    exact ⟨Silent.refl _, rfl, rfl⟩

theorem finish_plain {size : Nat} (fronted : Fronted w (plainFront size))
    (run : w.finish codec e = .ok outcome e') :
    ∃ w' middle, w.finishBytes e = .ok w' middle ∧ Silent middle e' ∧
      outcome.segments = w'.segments ∧ outcome.size = w'.size := by
  have compression : w.compression = none := fronted.compression
  have sse : w.sse = none := fronted.sse
  obtain ⟨w₁, e₁, w₂, e₂, w₃, e₃, packed, encrypted, finished, rest⟩ := finish_ok run
  simp only [ExtentWriter.finishCompression, compression, pure_eq_ok] at packed
  obtain ⟨rfl, rfl⟩ := packed
  simp only [ExtentWriter.finishSse, sse, pure_eq_ok] at encrypted
  obtain ⟨rfl, rfl⟩ := encrypted
  exact ⟨w₃, e₃, finished, rest⟩

theorem finish_roundTrip {fed : Bytes} {e₀ : EngineState}
    (sound : Sound e₀ (plainFront fed.length) fed w e) (run : w.finish codec e = .ok outcome e') :
    RoundTrip e₀ e' fed outcome := by
  obtain ⟨w', middle, finishing, silent, segments, size⟩ := finish_plain sound.fronted run
  obtain ⟨fixed, fronted, parts, laid, split⟩ := finishBytes_finished sound finishing
  have fixed' := fixed.trans silent.fixed
  apply Laid.roundTrip (sound.origin.uniform.of_fixed fixed') fixed' _ split
    (size.trans fronted.size)
  rw [segments]
  exact laid.of_kept silent.fixed fun seg _ => by rw [silent.data]

theorem Unstarted.lastSegment {front : Front} (unstarted : Unstarted w front) (oe : OpenExtent) :
    lastSegment w oe = ⟨oe.extentId, 0, 0, []⟩ := by
  obtain ⟨_, _, _, _, _, _, offset, written⟩ := closeGrid_kept w
  rw [Engine.lastSegment, offset, written, closeGrid_segCrcs, unstarted.segFill,
    unstarted.segOffset, unstarted.segWritten, unstarted.segCrcs]
  rfl

theorem finishBytes_unstarted {w' : ExtentWriter} {front : Front} (uniform : e.Uniform)
    (unstarted : Unstarted w front) (run : w.finishBytes e = .ok w' e') :
    e.Fixed e' ∧ Fronted w' front ∧
      w'.segments = (e.curOpen.map fun oe => (⟨oe.extentId, 0, 0, []⟩ : Segment)).toList := by
  obtain ⟨segments, _, _, chunkSize, front', _, _, _⟩ := closeGrid_kept w
  simp only [ExtentWriter.finishBytes, bind_eq_ok] at run
  obtain ⟨w₁, flushed, flushing, w₂, ended, ending, w₃, closed, closing, run⟩ := run
  obtain ⟨rfl, rfl⟩ := flushAcc_empty unstarted.acc flushing
  obtain ⟨silent, rfl⟩ := catchUpLive_silent run
  simp only [ExtentWriter.endIfExactlyFull, bind_eq_ok, get_eq_ok] at ending
  obtain ⟨_, _, ⟨rfl, rfl⟩, ending⟩ := ending
  cases opened : e.curOpen with
  | none =>
    simp only [opened, pure_eq_ok] at ending
    obtain ⟨rfl, rfl⟩ := ending
    obtain ⟨rfl, rfl⟩ := closeSegment_none opened closing
    exact ⟨silent.fixed, unstarted.fronted.of_front rfl rfl, unstarted.segments⟩
  | some oe =>
    simp only [opened] at ending
    split at ending
    · have short : w.closeGrid.segCrcs.length ≤ 256 := by
        rw [closeGrid_segCrcs, unstarted.segFill, unstarted.segCrcs]
        exact Nat.zero_le _
      obtain ⟨sealed, rfl⟩ := endSegment_ok uniform opened short ending
      obtain ⟨rfl, rfl⟩ :=
        closeSegment_none (sealed.curOpen.trans (curOpen_setOpen_none e)) closing
      refine ⟨((fixed_setOpen e _ _).trans sealed.fixed).trans silent.fixed,
        unstarted.fronted.of_front chunkSize front', ?_⟩
      simp only [segments, unstarted.segments, unstarted.lastSegment, List.nil_append,
        Option.map_some, Option.toList_some]
    · obtain ⟨rfl, rfl⟩ := pure_eq_ok.mp ending
      simp only [ExtentWriter.closeSegment, bind_eq_ok, get_eq_ok] at closing
      obtain ⟨_, _, ⟨rfl, rfl⟩, closing⟩ := closing
      simp only [opened, pure_eq_ok] at closing
      obtain ⟨rfl, rfl⟩ := closing
      refine ⟨silent.fixed, unstarted.fronted.of_front chunkSize front', ?_⟩
      have last := unstarted.lastSegment oe
      simp only [Engine.lastSegment] at last
      simp only [segments, unstarted.segments, last, List.nil_append, Option.map_some,
        Option.toList_some]

theorem finish_unstarted_iff (tidy : e.Tidy) (unstarted : Unstarted w (plainFront 0))
    (run : w.finish codec e = .ok outcome e') :
    RoundTrip e e' [] outcome ↔ ∀ oe, e.curOpen = some oe → oe.watermark = 0 := by
  obtain ⟨w', middle, finishing, silent, segments, size⟩ := finish_plain unstarted.fronted run
  obtain ⟨fixed, fronted', segments'⟩ := finishBytes_unstarted tidy.uniform unstarted finishing
  have size' := fronted'.size
  have fixed' := fixed.trans silent.fixed
  rw [segments'] at segments
  refine ⟨fun trip oe opened => ?_, fun low => ?_⟩
  · have member : (⟨oe.extentId, 0, 0, []⟩ : Segment) ∈ outcome.segments := by
      rw [segments, opened]
      simp
    have above := trip.above _ member _ oe (curOpen_eq_some.mp opened) rfl
    exact Nat.le_zero.mp above
  · cases opened : e.curOpen with
    | none =>
      rw [opened] at segments
      have laid : Laid e e' outcome.segments [] := by
        rw [segments]
        exact (Closed.nil e e').toLaid
      exact laid.roundTrip (tidy.uniform.of_fixed fixed') fixed' rfl (size.trans size')
    | some oe =>
      rw [opened] at segments
      have entry := curOpen_eq_some.mp opened
      obtain ⟨_, _, localExtent, placed⟩ := tidy.opened _ oe entry
      suffices laid : Laid e e' outcome.segments [[]] from
        laid.roundTrip (tidy.uniform.of_fixed fixed') fixed' rfl (size.trans size')
      rw [segments]
      refine ⟨.cons ⟨rfl, ⟨_, by rw [fixed'.devices]; exact placed⟩, Nat.zero_le _, rfl, rfl⟩ .nil,
        List.nodup_singleton _, ?_, ?_⟩
      · intro seg member
        obtain rfl := List.mem_singleton.mp member
        exact Nat.dvd_zero _
      · intro seg member di other entry' same
        obtain rfl := List.mem_singleton.mp member
        obtain ⟨_, _, localExtent', placed'⟩ := tidy.opened di other entry'
        rw [same, placed] at placed'
        obtain ⟨rfl, _⟩ : e.curDevice = di ∧ localExtent = localExtent' := by simpa using placed'
        obtain rfl : oe = other := by simpa using entry.symm.trans entry'
        exact (low oe opened).le

/-- The round trip holds for every stream with a byte, and for the empty stream unless
the current device has an open extent with data. -/
theorem writeStream_roundTrip_iff (codec : Codec) (etagMode : EtagMode) (chunks : List Bytes)
    (tidy : e.Tidy) {outcome : StreamWriteOutcome}
    (run : writeStream codec etagMode chunks e = .ok outcome e') :
    RoundTrip e e' chunks.flatten outcome ↔
      chunks.flatten ≠ [] ∨ ∀ oe, e.curOpen = some oe → oe.watermark = 0 := by
  simp only [writeStream, bind_eq_ok, get_eq_ok] at run
  obtain ⟨_, _, ⟨rfl, rfl⟩, fresh, _, creating, w, fed, feeding, finishing⟩ := run
  simp only [ExtentWriter.new, if_true, pure_eq_ok] at creating
  obtain ⟨rfl, rfl⟩ := creating
  have start : Streamed e (plainFront 0) []
      { ExtentWriter.plain e.chunkSize etagMode with compression := none } e :=
    .idle rfl rfl tidy ⟨⟨tidy.uniform.chunkSize, rfl⟩, rfl, rfl, rfl, rfl, rfl, rfl, rfl⟩
      (.inl rfl)
  have streamed := foldlM_ok (fun (done : List Bytes) w s => Streamed e (plainFront done.flatten.length) done.flatten w s)
    feeding start fun done data w middle w' next holds round => by
      rw [List.flatten_append, List.flatten_singleton]
      exact feed_streamed holds round
  cases streamed with
  | idle nothing same tidy' unstarted capacity =>
    subst same
    rw [nothing] at unstarted ⊢
    simpa using finish_unstarted_iff tidy unstarted finishing
  | running some sound =>
    exact ⟨fun _ => .inl some, fun _ => finish_roundTrip sound finishing⟩

end

theorem smallEngine_tidy (opened : Option OpenExtent)
    (first : ∀ oe, opened = some oe → oe.extentId = 0 ∧ sectorSize ∣ oe.watermark) :
    (smallEngine opened).Tidy := by
  refine ⟨⟨show (smallDisk 1).validate = .ok () by decide, ?_, rfl, rfl, rfl⟩, ?_⟩
  · intro slot member
    obtain rfl := List.mem_singleton.mp member
    rfl
  · intro di oe entry
    cases di with
    | zero =>
      obtain ⟨extent, aligned⟩ := first oe (by simpa [smallEngine] using entry)
      rw [extent]
      exact ⟨show ((Bitmap.new 15).setBit 0).test 0 = true by decide, aligned, 0, rfl⟩
    | succ di => simp [smallEngine] at entry

def sectorUsed : EngineState :=
  smallEngine (some ⟨0, 4096, 4096, 1⟩)

theorem sectorUsed_tidy : sectorUsed.Tidy := by
  apply smallEngine_tidy
  intro oe same
  cases same
  exact ⟨rfl, by decide⟩

theorem writeStream_roundTrip_three_bytes :
    ∃ outcome e', writeStream storingCodec .md5 [[1], [2, 3]] sectorUsed = .ok outcome e' ∧
      RoundTrip sectorUsed e' [1, 2, 3] outcome := by
  obtain ⟨outcome, e', run, _⟩ := exists_ok (fun _ => true)
    (writeStream storingCodec .md5 [[1], [2, 3]]) sectorUsed (by decide +kernel)
  refine ⟨outcome, e', run, ?_⟩
  apply (writeStream_roundTrip_iff _ _ _ sectorUsed_tidy run).mpr
  left
  decide

theorem writeStream_empty_below_watermark :
    ∃ outcome e', sectorUsed.Tidy ∧
      writeStream storingCodec .md5 [] sectorUsed = .ok outcome e' ∧
      outcome.segments = [⟨0, 0, 0, []⟩] ∧ ¬RoundTrip sectorUsed e' [] outcome := by
  obtain ⟨outcome, e', run, segments⟩ := exists_ok
    (fun outcome : StreamWriteOutcome => decide (outcome.segments = [⟨0, 0, 0, []⟩]))
    (writeStream storingCodec .md5 []) sectorUsed (by decide +kernel)
  rw [decide_eq_true_eq] at segments
  refine ⟨outcome, e', sectorUsed_tidy, run, segments, fun trip => ?_⟩
  have above := trip.above ⟨0, 0, 0, []⟩ (by rw [segments]; simp) 0 ⟨0, 4096, 4096, 1⟩ rfl rfl
  cases above

end FastS3.Engine
