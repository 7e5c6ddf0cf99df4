import FastS3.Engine.PutFailure
import FastS3.Engine.ReadBack

namespace FastS3.Engine

open FastS3.Core Data Device EngineState

/-! What the decoder gets of an encrypted compressed record.

The chunks are those of the whole compressed stream, and the reader goes through the stream segment
by segment.  It opens what one segment holds of a chunk, so it reads exactly the records of which no
chunk lies in two segments.
-/

section Grid

variable {α : Type} {grid start : Nat} {piece : List α} {rest : List (List α)}

def OnGrid (grid start : Nat) (pieces : List (List α)) : Prop :=
  ∀ before after, before ++ after = pieces → after.flatten ≠ [] →
    grid ∣ start + before.flatten.length

theorem onGrid_cons :
    OnGrid grid start (piece :: rest) ↔
      ((piece :: rest).flatten ≠ [] → grid ∣ start) ∧ OnGrid grid (start + piece.length) rest := by
  constructor
  · intro all
    constructor
    · intro some
      exact all [] (piece :: rest) rfl some
    · intro before after split some
      have here := all (piece :: before) after (by rw [List.cons_append, split]) some
      rw [List.flatten_cons, List.length_append, ← Nat.add_assoc] at here
      exact here
  · rintro ⟨first, later⟩ before after split some
    cases before with
    | nil =>
      rw [List.nil_append] at split
      rw [split] at some
      exact first some
    | cons head before =>
      obtain ⟨rfl, inner⟩ := List.cons.inj split
      have here := later before after inner some
      rw [List.flatten_cons, List.length_append, ← Nat.add_assoc]
      exact here

theorem onGrid_nil (grid start : Nat) : OnGrid grid start ([] : List (List α)) := by
  intro before after split some
  obtain ⟨_, rfl⟩ := List.append_eq_nil_iff.mp split
  exact absurd rfl some

theorem onGrid_of_empty {pieces : List (List α)} (empty : pieces.flatten = []) :
    OnGrid grid start pieces := by
  intro before after split some
  rw [← split, List.flatten_append] at empty
  exact absurd (List.append_eq_nil_iff.mp empty).2 some

end Grid

def Genuine (codec : Codec) (dataKey nonceBase packed : Bytes) : Prop :=
  ∀ cno chunk, (sseChunks packed)[cno]? = some chunk → ∀ received,
    codec.decryptChunk dataKey nonceBase cno received
        (codec.encryptChunk dataKey nonceBase cno chunk).2 =
      if received = (codec.encryptChunk dataKey nonceBase cno chunk).1 then some chunk else none

/-- The tags are those of the whole compressed stream, which the decoder takes in any pieces. -/
structure Sealed (codec : Codec) (sse : SseInfo) (dataKey packed : Bytes) : Prop where
  tags : sse.chunkTags = chunkTags codec dataKey sse.nonceBase packed
  genuine : Genuine codec dataKey sse.nonceBase packed
  lengths : ∀ cno chunk, (codec.encryptChunk dataKey sse.nonceBase cno chunk).1.length = chunk.length
  inflates : ∀ parts : List Bytes, parts.flatten = packed → ∃ content, codec.decodeAll parts = .ok content

/-- A record with the pieces of the ciphertext in its segments. -/
structure SealedIn (codec : Codec) (e : EngineState) (m : ObjectMeta) (sse : SseInfo)
    (sseKey : Option Bytes) (dataKey packed : Bytes) (pieces : List Bytes) : Prop
    extends Sealed codec sse dataKey packed where
  uniform : e.Uniform
  inline : m.inline = none
  encrypted : m.sse = some sse
  opens : KeyOpens codec sse sseKey dataKey
  located : List.Forall₂ (Located e) m.extents pieces
  split : pieces.flatten = ciphertext codec dataKey sse.nonceBase packed

/-- The decoder gets exactly the compressed stream; without a failing call there is no error, so none
of the authentication either. -/
structure FeedsExactly (codec : Codec) (e : EngineState) (m : ObjectMeta) (sseKey : Option Bytes)
    (start stop : Nat) (packed : Bytes) : Prop where
  outcome : match feedStored codec m sseKey start stop e with
    | .ok (d, _) _ => d.inputs.flatten = packed
    | .error _ _ => e.Failing

section Chunks

variable {codec : Codec} {dataKey nonceBase packed : Bytes}

theorem ciphertext_length
    (lengths : ∀ cno chunk, (codec.encryptChunk dataKey nonceBase cno chunk).1.length = chunk.length) :
    (ciphertext codec dataKey nonceBase packed).length = packed.length := by
  have each : (List.length ∘ Prod.fst) ∘ (fun chunk : Bytes × Nat =>
      codec.encryptChunk dataKey nonceBase chunk.2 chunk.1) = List.length ∘ Prod.fst := by
    funext chunk
    exact lengths chunk.2 chunk.1
  have sums : ((sealChunks codec dataKey nonceBase packed).map Prod.fst).map List.length =
      (sseChunks packed).map List.length := by
    rw [sealChunks, List.map_map, List.map_map, each, ← List.map_map, List.zipIdx_map_fst]
  rw [ciphertext, List.length_flatten, sums, ← List.length_flatten, sseChunks_eq,
    blocks_flatten (by decide)]

theorem sealed_chunk
    (lengths : ∀ cno chunk, (codec.encryptChunk dataKey nonceBase cno chunk).1.length = chunk.length)
    {cno : Nat} (inside : cno * sseChunkSize < packed.length) :
    ∃ chunk, (sseChunks packed)[cno]? = some chunk ∧
      chunk = slice packed (cno * sseChunkSize) sseChunkSize ∧
      (chunkTags codec dataKey nonceBase packed)[cno]? =
        some (codec.encryptChunk dataKey nonceBase cno chunk).2 ∧
      slice (ciphertext codec dataKey nonceBase packed) (cno * sseChunkSize) chunk.length =
        (codec.encryptChunk dataKey nonceBase cno chunk).1 := by
  have found : (sseChunks packed)[cno]? = some (slice packed (cno * sseChunkSize) sseChunkSize) :=
    blocks_getElem? (by decide) inside
  generalize plain : slice packed (cno * sseChunkSize) sseChunkSize = chunk at found
  have sealed : (sealChunks codec dataKey nonceBase packed)[cno]? =
      some (codec.encryptChunk dataKey nonceBase cno chunk) := by
    rw [sealChunks, List.getElem?_map, List.getElem?_zipIdx, found, Option.map_some, Option.map_some,
      Nat.zero_add]
  have each : (List.length ∘ Prod.fst) ∘ (fun chunk : Bytes × Nat =>
      codec.encryptChunk dataKey nonceBase chunk.2 chunk.1) = List.length ∘ Prod.fst := by
    funext chunk
    exact lengths chunk.2 chunk.1
  have sums : ((sealChunks codec dataKey nonceBase packed).map Prod.fst).map List.length =
      (blocks sseChunkSize packed).map List.length := by
    rw [sealChunks, List.map_map, List.map_map, each, ← List.map_map, List.zipIdx_map_fst, sseChunks_eq]
  have piece : ((sealChunks codec dataKey nonceBase packed).map Prod.fst)[cno]? =
      some (codec.encryptChunk dataKey nonceBase cno chunk).1 := by
    rw [List.getElem?_map, sealed, Option.map_some]
  obtain ⟨placed, _, _⟩ := flatten_block (by decide) sums piece
  refine ⟨chunk, found, rfl, ?_, ?_⟩
  · rw [chunkTags, List.getElem?_map, sealed, Option.map_some]
  · rw [lengths] at placed
    exact placed

theorem decode_of_inflates
    (inflates : ∀ parts : List Bytes, parts.flatten = packed →
      ∃ content, codec.decodeAll parts = .ok content)
    {inputs : List Bytes} {piece : Bytes} (part : inputs.flatten ++ piece <+: packed) :
    ∃ output, codec.decode inputs piece = .ok output := by
  obtain ⟨tail, whole⟩ := part
  obtain ⟨content, decoded⟩ := inflates (inputs ++ piece :: [tail]) (by
    rw [List.flatten_append, List.flatten_cons, List.flatten_singleton, ← List.append_assoc, whole])
  have later : ∀ before done : List Bytes, ∀ result, codec.decodeFrom done (before ++ piece :: [tail]) =
      .ok result → ∃ output, codec.decode (done ++ before) piece = .ok output := by
    intro before
    induction before with
    | nil =>
      intro done result run
      rw [List.nil_append, Codec.decodeFrom] at run
      rw [List.append_nil]
      cases first : codec.decode done piece with
      | error e => rw [first] at run; cases run
      | ok output => exact ⟨output, rfl⟩
    | cons head before ih =>
      intro done result run
      rw [List.cons_append, Codec.decodeFrom] at run
      cases first : codec.decode done head with
      | error e => rw [first] at run; cases run
      | ok output =>
        cases tailed : codec.decodeFrom (done ++ [head]) (before ++ piece :: [tail]) with
        | error e => rw [first, tailed] at run; cases run
        | ok rest =>
          have found := ih (done ++ [head]) rest tailed
          rw [List.append_assoc, List.singleton_append] at found
          exact found
  exact later inputs [] content decoded

end Chunks

section Segment

variable {codec : Codec} {e : EngineState} {fail : Prop} {sse : SseInfo}
  {dataKey packed : Bytes} {start stop streamPos : Nat} {raw : Bytes}

/-- A segment that holds the stream from a place of the grid on. -/
structure Aligned (codec : Codec) (sse : SseInfo) (dataKey packed : Bytes) (streamPos : Nat)
    (raw : Bytes) : Prop where
  onGrid : sseChunkSize ∣ streamPos
  fits : streamPos + raw.length ≤ packed.length
  stored : raw = slice (ciphertext codec dataKey sse.nonceBase packed) streamPos raw.length

def Fed (packed : Bytes) (pos : Nat) (state : Decoder × Bytes) : Prop :=
  state.1.inputs.flatten = packed.take pos

theorem feedSseSegment_chunk (onGrid : sseChunkSize ∣ streamPos) (fuel : Nat) {off : Nat}
    (inChunks : sseChunkSize ∣ off) (more : off < raw.length) (state : Decoder × Bytes) :
    feedSseSegment codec sse dataKey start stop streamPos raw (fuel + 1) off state =
      (do
        let cno := (streamPos + off) / sseChunkSize
        let plaintext ← decryptChunk codec dataKey sse cno
          (slice raw off (min sseChunkSize (raw.length - off)))
          (.corrupt s!"sse chunk_tags too short (need chunk {cno})")
          (.corrupt s!"sse-c chunk {cno} authentication failed (compressed stream)")
        let state ← feedWindow codec start stop state plaintext
        feedSseSegment codec sse dataKey start stop streamPos raw fuel
          (off + min sseChunkSize (raw.length - off)) state) := by
  have grid : 0 < sseChunkSize := by decide
  have chunkStart : (streamPos + off) / sseChunkSize * sseChunkSize = streamPos + off :=
    Nat.div_mul_cancel (Nat.dvd_add onGrid inChunks)
  have inSeg : streamPos + off - streamPos = off := by omega
  have take : min sseChunkSize (streamPos + raw.length - (streamPos + off)) =
      min sseChunkSize (raw.length - off) := by
    rw [Nat.add_sub_add_left]
  have bound : min (off + min sseChunkSize (raw.length - off)) raw.length =
      off + min sseChunkSize (raw.length - off) := by omega
  have some : ¬off ≥ off + min sseChunkSize (raw.length - off) := by omega
  have width : off + min sseChunkSize (raw.length - off) - off = min sseChunkSize (raw.length - off) := by
    omega
  rw [feedSseSegment]
  simp only [more, if_true, chunkStart, inSeg, take, max_self, bound, some, if_false, width]

theorem feedSseSegment_done (fuel off : Nat) (done : raw.length ≤ off) (state : Decoder × Bytes) :
    feedSseSegment codec sse dataKey start stop streamPos raw fuel off state = pure state := by
  cases fuel with
  | zero => rfl
  | succ fuel =>
    rw [feedSseSegment, if_neg (by omega)]

variable {state : Decoder × Bytes}

theorem feedWindow_feeds {input output : Bytes}
    (decoded : codec.decode state.1.inputs input = .ok output) :
    feedWindow codec start stop state input =
      pure (⟨state.1.inputs ++ [input], state.1.windowPos + output.length⟩,
        state.2 ++ state.1.window start stop output) := by
  obtain ⟨d, out⟩ := state
  unfold feedWindow Decoder.feed
  dsimp only at decoded ⊢
  rw [decoded]
  rfl

theorem feedChunk_whole (sealed : Sealed codec sse dataKey packed) {pos : Nat} {received : Bytes}
    (onGrid : sseChunkSize ∣ pos) (inside : pos < packed.length)
    (whole : received = slice (ciphertext codec dataKey sse.nonceBase packed) pos
      (min sseChunkSize (packed.length - pos))) (fed : Fed packed pos state)
    (missing failure : Error) :
    Ensures (Viewed e)
      (do
        let plaintext ← decryptChunk codec dataKey sse (pos / sseChunkSize) received missing failure
        feedWindow codec start stop state plaintext)
      (fun state s => Fed packed (pos + min sseChunkSize (packed.length - pos)) state ∧ Viewed e s)
      fun _ => fail := by
  obtain ⟨cno, rfl⟩ := onGrid
  rw [Nat.mul_comm] at inside whole fed
  have number : sseChunkSize * cno / sseChunkSize = cno := Nat.mul_div_cancel_left _ (by decide)
  obtain ⟨chunk, found, plain, tagged, stored⟩ :=
    sealed_chunk sealed.lengths inside
  have width : chunk.length = min sseChunkSize (packed.length - cno * sseChunkSize) := by
    rw [plain, slice_length]
  have opens := sealed.genuine cno chunk found received
  rw [whole, ← width, stored, if_pos rfl] at opens
  rw [number, whole, ← width, stored]
  rw [← sealed.tags] at tagged
  apply Ensures.bindFact (decryptChunk_viewed tagged opens missing failure)
  intro plaintext same
  rw [same]
  have part : state.1.inputs.flatten ++ chunk = packed.take (cno * sseChunkSize + chunk.length) := by
    have same : slice packed (cno * sseChunkSize) sseChunkSize =
        (packed.drop (cno * sseChunkSize)).take chunk.length := by
      rw [slice, List.take_eq_take_iff, List.length_drop]
      omega
    rw [fed, List.take_add, ← same, ← plain]
  obtain ⟨output, decoded⟩ := decode_of_inflates sealed.inflates
    (part ▸ List.take_prefix _ _ : state.1.inputs.flatten ++ chunk <+: packed)
  rw [feedWindow_feeds decoded]
  apply Ensures.pure
  intro s seen
  refine ⟨?_, seen⟩
  rw [Fed, List.flatten_append, List.flatten_singleton, part, Nat.mul_comm sseChunkSize, width]

theorem feedSseSegment_next (sealed : Sealed codec sse dataKey packed)
    (aligned : Aligned codec sse dataKey packed streamPos raw) {fuel off : Nat}
    {post : Decoder × Bytes → EngineState → Prop} (inChunks : sseChunkSize ∣ off)
    (more : off < raw.length)
    (take : min sseChunkSize (raw.length - off) =
      min sseChunkSize (packed.length - (streamPos + off)))
    (fed : Fed packed (streamPos + off) state)
    (later : ∀ state, Fed packed (streamPos + (off + min sseChunkSize (raw.length - off))) state →
      Ensures (Viewed e) (feedSseSegment codec sse dataKey start stop streamPos raw fuel
        (off + min sseChunkSize (raw.length - off)) state) post fun _ => fail) :
    Ensures (Viewed e)
      (feedSseSegment codec sse dataKey start stop streamPos raw (fuel + 1) off state) post
      fun _ => fail := by
  obtain ⟨onGrid, fits, stored⟩ := aligned
  have place : sseChunkSize ∣ streamPos + off := Nat.dvd_add onGrid inChunks
  have received : slice raw off (min sseChunkSize (raw.length - off)) =
      slice (ciphertext codec dataKey sse.nonceBase packed) (streamPos + off)
        (min sseChunkSize (packed.length - (streamPos + off))) := by
    have inside : off + min sseChunkSize (raw.length - off) ≤ raw.length := by omega
    rw [← take, ← slice_slice _ inside, ← stored]
  rw [feedSseSegment_chunk onGrid fuel inChunks more]
  dsimp only
  rw [← bind_assoc]
  apply Ensures.bindFact (feedChunk_whole sealed place (by omega) received fed _ _)
  intro state fed
  apply later
  rw [take, ← Nat.add_assoc]
  exact fed

/-- A segment that holds the stream from a place of the grid to a place of the grid or the end is
decoded. -/
theorem feedSseSegment_whole (sealed : Sealed codec sse dataKey packed)
    (aligned : Aligned codec sse dataKey packed streamPos raw)
    (ends : streamPos + raw.length < packed.length → sseChunkSize ∣ streamPos + raw.length)
    (fuel off : Nat) (enough : raw.length - off ≤ fuel) (reached : off ≤ raw.length)
    (inChunks : off < raw.length → sseChunkSize ∣ off) (fed : Fed packed (streamPos + off) state) :
    Ensures (Viewed e) (feedSseSegment codec sse dataKey start stop streamPos raw fuel off state)
      (fun state s => Fed packed (streamPos + raw.length) state ∧ Viewed e s) fun _ => fail := by
  induction fuel generalizing off state with
  | zero =>
    obtain rfl : off = raw.length := by omega
    rw [feedSseSegment_done _ _ le_rfl]
    exact Ensures.pure fun s seen => ⟨fed, seen⟩
  | succ fuel ih =>
    by_cases more : off < raw.length
    · have step := inChunks more
      have fits := aligned.fits
      have take : min sseChunkSize (raw.length - off) =
          min sseChunkSize (packed.length - (streamPos + off)) := by
        by_cases last : streamPos + raw.length < packed.length
        · have rest : sseChunkSize ∣ raw.length - off := by
            have := Nat.dvd_sub (ends last) (Nat.dvd_add aligned.onGrid step)
            rwa [Nat.add_sub_add_left] at this
          have full : sseChunkSize ≤ raw.length - off := Nat.le_of_dvd (by omega) rest
          omega
        · have final : raw.length - off = packed.length - (streamPos + off) := by omega
          rw [final]
      apply feedSseSegment_next sealed aligned step more take fed
      intro state fed
      apply ih _ _ _ _ fed
      · have : 0 < sseChunkSize := by decide
        omega
      · omega
      · intro further
        have full : min sseChunkSize (raw.length - off) = sseChunkSize := by omega
        rw [full]
        exact Nat.dvd_add step (Nat.dvd_refl _)
    · obtain rfl : off = raw.length := by omega
      rw [feedSseSegment_done _ _ le_rfl]
      exact Ensures.pure fun s seen => ⟨fed, seen⟩

theorem decryptChunk_cut (sealed : Sealed codec sse dataKey packed) {pos : Nat} {received : Bytes}
    (onGrid : sseChunkSize ∣ pos) (inside : pos < packed.length)
    (short : received.length < min sseChunkSize (packed.length - pos)) (missing failure : Error) :
    decryptChunk codec dataKey sse (pos / sseChunkSize) received missing failure = throw failure := by
  obtain ⟨cno, rfl⟩ := onGrid
  rw [Nat.mul_comm] at inside short
  rw [Nat.mul_div_cancel_left _ (by decide : 0 < sseChunkSize)]
  obtain ⟨chunk, found, plain, tagged, -⟩ := sealed_chunk sealed.lengths inside
  have other : received ≠ (codec.encryptChunk dataKey sse.nonceBase cno chunk).1 := by
    intro same
    rw [same, sealed.lengths, plain, slice_length] at short
    omega
  have refused := sealed.genuine cno chunk found received
  rw [if_neg other] at refused
  rw [← sealed.tags] at tagged
  unfold decryptChunk
  simp only [tagged, refused]

theorem feedSseSegment_cut (sealed : Sealed codec sse dataKey packed)
    (aligned : Aligned codec sse dataKey packed streamPos raw)
    (behind : streamPos + raw.length < packed.length) (cut : ¬sseChunkSize ∣ streamPos + raw.length)
    (fuel off : Nat) (enough : raw.length - off < fuel) (inside : off ≤ raw.length)
    (inChunks : sseChunkSize ∣ off) (fed : Fed packed (streamPos + off) state) :
    Ensures (Viewed e) (feedSseSegment codec sse dataKey start stop streamPos raw fuel off state)
      (fun _ _ => False) fun _ => True := by
  induction fuel generalizing off state with
  | zero => omega
  | succ fuel ih =>
    have place : sseChunkSize ∣ streamPos + off := Nat.dvd_add aligned.onGrid inChunks
    have more : off < raw.length := by
      apply lt_of_le_of_ne inside
      intro same
      rw [same] at place
      exact cut place
    by_cases full : sseChunkSize ≤ raw.length - off
    · have chunk : min sseChunkSize (raw.length - off) = sseChunkSize := by omega
      apply feedSseSegment_next sealed aligned inChunks more (by omega) fed
      rw [chunk]
      intro state fed
      apply ih _ _ _ _ fed
      · have : 0 < sseChunkSize := by decide
        omega
      · omega
      · exact Nat.dvd_add inChunks (Nat.dvd_refl _)
    · rw [feedSseSegment_chunk aligned.onGrid fuel inChunks more]
      dsimp only
      rw [decryptChunk_cut sealed place (by omega) (by rw [slice_length]; omega)]
      exact ⟨fun s _ => trivial⟩

end Segment

section Segments

variable {codec : Codec} {e : EngineState} {m : ObjectMeta} {sse : SseInfo} {sseKey : Option Bytes}
  {dataKey packed : Bytes} {start stop : Nat}

variable {state : Decoder × Bytes}

theorem feedSegment_loop {fail : Prop} {seg : Segment} {raw : Bytes} {streamPos : Nat}
    {post : Decoder × Bytes → EngineState → Prop} (uniform : e.Uniform)
    (encrypted : m.sse = some sse) (opens : KeyOpens codec sse sseKey dataKey)
    (located : Located e seg raw) (failing : e.Failing → fail)
    (loop : Ensures (Viewed e)
      (feedSseSegment codec sse dataKey start stop streamPos raw (raw.length + 1) 0 state) post
      fun _ => fail) :
    Ensures (Viewed e) (feedSegment codec m sseKey start stop (streamPos, state) seg)
      (fun progress s => progress.1 = streamPos + raw.length ∧ post progress.2 s) fun _ => fail := by
  unfold feedSegment
  apply Ensures.bindFact (readSegmentRaw_located uniform located fun fault => failing (.inl fault))
  intro bytes same
  subst same
  rw [encrypted]
  apply Ensures.bindFact (sseReadDataKey_viewed opens failing)
  intro key found
  subst found
  apply Ensures.bind loop
  intro state
  exact Ensures.pure fun s holds => ⟨rfl, holds⟩

theorem feedSegment_fed {fail : Prop} {seg : Segment} {raw : Bytes} {streamPos : Nat}
    (uniform : e.Uniform) (encrypted : m.sse = some sse) (opens : KeyOpens codec sse sseKey dataKey)
    (located : Located e seg raw) (failing : e.Failing → fail)
    (loop : Ensures (Viewed e)
      (feedSseSegment codec sse dataKey start stop streamPos raw (raw.length + 1) 0 state)
      (fun state s => Fed packed (streamPos + raw.length) state ∧ Viewed e s) fun _ => fail) :
    Ensures (Viewed e) (feedSegment codec m sseKey start stop (streamPos, state) seg)
      (fun progress s => (progress.1 = streamPos + raw.length ∧
        Fed packed (streamPos + raw.length) progress.2) ∧ Viewed e s) fun _ => fail := by
  apply (feedSegment_loop uniform encrypted opens located failing loop).weaken
  intro progress s holds
  exact ⟨⟨holds.1, holds.2.1⟩, holds.2.2⟩

theorem aligned_of_drop {pieces : List Bytes} {raw : Bytes} {streamPos : Nat}
    (sealed : Sealed codec sse dataKey packed) (onGrid : sseChunkSize ∣ streamPos)
    (place : streamPos ≤ packed.length)
    (rest : (ciphertext codec dataKey sse.nonceBase packed).drop streamPos = (raw :: pieces).flatten) :
    Aligned codec sse dataKey packed streamPos raw := by
  have width := congrArg List.length rest
  rw [List.length_drop, ciphertext_length sealed.lengths, List.flatten_cons, List.length_append] at width
  refine ⟨onGrid, by omega, ?_⟩
  rw [slice, rest, List.flatten_cons, List.take_left]

theorem drop_behind {pieces : List Bytes} {raw stream : Bytes} {streamPos : Nat}
    (rest : stream.drop streamPos = (raw :: pieces).flatten) :
    stream.drop (streamPos + raw.length) = pieces.flatten := by
  rw [← List.drop_drop, rest, List.flatten_cons, List.drop_left]

theorem feedSegments_onGrid (start stop : Nat) (sealed : Sealed codec sse dataKey packed)
    (uniform : e.Uniform) (encrypted : m.sse = some sse) (opens : KeyOpens codec sse sseKey dataKey)
    {segments : List Segment} {pieces : List Bytes}
    (located : List.Forall₂ (Located e) segments pieces) {streamPos : Nat}
    (place : streamPos ≤ packed.length)
    (rest : (ciphertext codec dataKey sse.nonceBase packed).drop streamPos = pieces.flatten)
    (grid : OnGrid sseChunkSize streamPos pieces) (fed : Fed packed streamPos state) :
    Ensures (Viewed e) (segments.foldlM (feedSegment codec m sseKey start stop) (streamPos, state))
      (fun progress s => Fed packed packed.length progress.2 ∧ Viewed e s) fun _ => e.Failing := by
  induction located generalizing streamPos state with
  | nil =>
    have width := congrArg List.length rest
    rw [List.length_drop, ciphertext_length sealed.lengths, List.flatten_nil, List.length_nil] at width
    obtain rfl : streamPos = packed.length := by omega
    exact Ensures.pure fun s seen => ⟨fed, seen⟩
  | @cons seg raw segments pieces found located ih =>
    obtain ⟨first, later⟩ := onGrid_cons.mp grid
    have behind := drop_behind rest
    have width := congrArg List.length rest
    rw [List.length_drop, ciphertext_length sealed.lengths, List.flatten_cons, List.length_append] at width
    have loop : Ensures (Viewed e)
        (feedSseSegment codec sse dataKey start stop streamPos raw (raw.length + 1) 0 state)
        (fun state s => Fed packed (streamPos + raw.length) state ∧ Viewed e s)
        fun _ => e.Failing := by
      by_cases empty : raw = []
      · rw [feedSseSegment_done _ _ (by rw [empty]; exact le_rfl), empty]
        exact Ensures.pure fun s seen => ⟨fed, seen⟩
      · have onGrid : sseChunkSize ∣ streamPos := by
          apply first
          intro none
          rw [List.flatten_cons] at none
          exact empty (List.append_eq_nil_iff.mp none).1
        apply feedSseSegment_whole sealed (aligned_of_drop sealed onGrid place rest) _ _ 0 (by omega)
          (Nat.zero_le _) (fun _ => Nat.dvd_zero _) fed
        intro more
        apply later [] pieces rfl
        intro none
        rw [none, List.length_nil] at width
        omega
    rw [List.foldlM_cons]
    apply Ensures.bindFact (feedSegment_fed uniform encrypted opens found id loop)
    rintro ⟨pos, state⟩ ⟨moved, fed⟩
    dsimp only at moved fed
    subst moved
    exact ih (by omega) behind later fed

theorem feedSegments_offGrid (start stop : Nat) (sealed : Sealed codec sse dataKey packed)
    (uniform : e.Uniform) (encrypted : m.sse = some sse) (opens : KeyOpens codec sse sseKey dataKey)
    {segments : List Segment} {pieces : List Bytes}
    (located : List.Forall₂ (Located e) segments pieces) {streamPos : Nat}
    (place : streamPos ≤ packed.length) (onGrid : sseChunkSize ∣ streamPos)
    (rest : (ciphertext codec dataKey sse.nonceBase packed).drop streamPos = pieces.flatten)
    (cut : ¬OnGrid sseChunkSize streamPos pieces) (fed : Fed packed streamPos state) :
    Ensures (Viewed e) (segments.foldlM (feedSegment codec m sseKey start stop) (streamPos, state))
      (fun _ _ => False) fun _ => True := by
  induction located generalizing streamPos state with
  | nil => exact absurd (onGrid_nil _ _) cut
  | @cons seg raw segments pieces found located ih =>
    have behind := drop_behind rest
    have width := congrArg List.length rest
    rw [List.length_drop, ciphertext_length sealed.lengths, List.flatten_cons, List.length_append] at width
    have aligned := aligned_of_drop sealed onGrid place rest
    have later : ¬OnGrid sseChunkSize (streamPos + raw.length) pieces := by
      intro grid
      exact cut (onGrid_cons.mpr ⟨fun _ => onGrid, grid⟩)
    have some : pieces.flatten ≠ [] := fun none => later (onGrid_of_empty none)
    have more : streamPos + raw.length < packed.length := by
      have := List.length_pos_of_ne_nil some
      omega
    rw [List.foldlM_cons]
    by_cases ends : sseChunkSize ∣ streamPos + raw.length
    · apply Ensures.bindFact (feedSegment_fed uniform encrypted opens found (fun _ => trivial)
        (feedSseSegment_whole sealed aligned (fun _ => ends) (raw.length + 1) 0 (by omega)
          (Nat.zero_le _) (fun _ => Nat.dvd_zero _) fed))
      rintro ⟨pos, state⟩ ⟨moved, fed⟩
      dsimp only at moved fed
      subst moved
      exact ih (by omega) ends behind later fed
    · apply Ensures.bind (feedSegment_loop uniform encrypted opens found (fun _ => trivial)
        (feedSseSegment_cut sealed aligned more ends (raw.length + 1) 0 (by omega) (Nat.zero_le _)
          (Nat.dvd_zero _) fed))
      intro progress
      exact ⟨fun s holds => absurd holds.2 not_false⟩

end Segments

section Record

variable {codec : Codec} {e : EngineState} {m : ObjectMeta} {sse : SseInfo} {sseKey : Option Bytes}
  {dataKey packed : Bytes} {pieces : List Bytes}

theorem feedsExactly_of_onGrid (given : SealedIn codec e m sse sseKey dataKey packed pieces)
    (grid : OnGrid sseChunkSize 0 pieces) (start stop : Nat) :
    FeedsExactly codec e m sseKey start stop packed := by
  have fed : Fed packed 0 (Decoder.new, ([] : Bytes)) := rfl
  have reads := feedSegments_onGrid start stop given.toSealed given.uniform given.encrypted given.opens
    given.located (Nat.zero_le _) given.split.symm grid fed
  have stored : Ensures (Viewed e) (feedStored codec m sseKey start stop)
      (fun state _ => Fed packed packed.length state) fun _ => e.Failing := by
    unfold feedStored
    rw [given.inline]
    apply Ensures.bind reads
    intro progress
    exact Ensures.pure fun s holds => holds.1
  have outcome := stored.run e (Viewed.refl e)
  constructor
  cases run : feedStored codec m sseKey start stop e with
  | ok state s =>
    rw [run] at outcome
    have whole : state.1.inputs.flatten = packed.take packed.length := outcome
    rw [List.take_length] at whole
    exact whole
  | error reason s =>
    rw [run] at outcome
    exact outcome

theorem onGrid_of_feedsExactly (given : SealedIn codec e m sse sseKey dataKey packed pieces)
    (calm : ¬e.Failing) {start stop : Nat} (feeds : FeedsExactly codec e m sseKey start stop packed) :
    OnGrid sseChunkSize 0 pieces := by
  by_contra cut
  have began : Fed packed 0 (Decoder.new, ([] : Bytes)) := rfl
  have reads := feedSegments_offGrid start stop given.toSealed given.uniform given.encrypted given.opens
    given.located (Nat.zero_le _) (Nat.dvd_zero _) given.split.symm cut began
  have stored : Ensures (Viewed e) (feedStored codec m sseKey start stop) (fun _ _ => False)
      fun _ => True := by
    unfold feedStored
    rw [given.inline]
    apply Ensures.bind reads
    intro progress
    exact ⟨fun s holds => absurd holds not_false⟩
  have outcome := stored.run e (Viewed.refl e)
  have fed := feeds.outcome
  cases run : feedStored codec m sseKey start stop e with
  | ok state s =>
    rw [run] at outcome
    exact outcome
  | error reason s =>
    rw [run] at fed
    exact calm fed

/-- An encrypted compressed record is decoded exactly when every boundary of its segments inside the
stream is a multiple of the chunk size. -/
theorem feedStored_exact_iff_onGrid (given : SealedIn codec e m sse sseKey dataKey packed pieces)
    (start stop : Nat) :
    (OnGrid sseChunkSize 0 pieces → FeedsExactly codec e m sseKey start stop packed) ∧
      (¬e.Failing → FeedsExactly codec e m sseKey start stop packed → OnGrid sseChunkSize 0 pieces) :=
  ⟨fun grid => feedsExactly_of_onGrid given grid start stop, fun calm => onGrid_of_feedsExactly given calm⟩

end Record

def taggingCodec : Codec :=
  { storingCodec with
    encryptChunk := fun _ _ _ data => (data, data)
    decryptChunk := fun _ _ _ data tag => if data = tag then some data else none }

def zeros (segments : List Segment) : List Bytes :=
  segments.map fun seg => List.replicate seg.len 0

def zeroSse (segments : List Segment) : SseInfo :=
  ⟨.sseC, 0, [], [], chunkTags taggingCodec [] [] (zeros segments).flatten, []⟩

def zeroRecord (segments : List Segment) : ObjectMeta :=
  { storedObject with
    size := (zeros segments).flatten.length
    extents := segments
    sse := some (zeroSse segments)
    compressed := some ⟨1, (zeros segments).flatten.length, (zeros segments).flatten.length⟩ }

theorem smallEngine_data (opened : Option OpenExtent) (id position : Nat) :
    (smallEngine opened).data id position = 0 := by
  unfold EngineState.data
  cases placed : resolveExtent (smallEngine opened).devices id with
  | none => rfl
  | some place =>
    obtain ⟨di, localExtent⟩ := place
    cases di with
    | zero =>
      simp only [smallEngine, List.getElem?_cons_zero]
      exact ite_self _
    | succ di => simp [smallEngine]

theorem decodeFrom_stored (done parts : List Bytes) :
    taggingCodec.decodeFrom done parts = .ok parts.flatten := by
  induction parts generalizing done with
  | nil => rfl
  | cons part parts ih =>
    rw [Codec.decodeFrom, ih]
    rfl

theorem zeroRecord_sealed {segments : List Segment}
    (inside : ∀ seg ∈ segments, (∃ place, resolveExtent (smallEngine none).devices seg.extentId = some place) ∧
      seg.offset + seg.len ≤ (smallEngine none).mainSb.extentCapacity) :
    SealedIn taggingCodec (smallEngine none) (zeroRecord segments) (zeroSse segments) (some []) []
      (zeros segments).flatten (zeros segments) where
  tags := rfl
  genuine := fun cno chunk _ received => by
    change (if received = chunk then some received else none) = if received = chunk then some chunk else none
    split
    · next same => rw [same]
    · rfl
  lengths := fun _ _ => rfl
  inflates := fun parts _ => ⟨parts.flatten, by rw [Codec.decodeAll, decodeFrom_stored]⟩
  uniform := (smallEngine_tidy none fun _ none => nomatch none).uniform
  inline := rfl
  encrypted := rfl
  opens := rfl
  located := by
    rw [zeros, List.forall₂_map_right_iff]
    apply List.forall₂_same.mpr
    intro seg member
    obtain ⟨placed, fits⟩ := inside seg member
    refine ⟨List.length_replicate, placed, fits, ?_⟩
    rw [readArea]
    simp only [smallEngine_data]
    rw [List.map_const', List.length_range]
  split := by
    have chunks : ∀ parts : List Bytes, (parts.zipIdx.map fun part : Bytes × Nat =>
        (part.1, part.1)).map Prod.fst = parts := by
      intro parts
      rw [List.map_map]
      exact List.zipIdx_map_fst 0 parts
    change _ = (((sseChunks (zeros segments).flatten).zipIdx.map fun part : Bytes × Nat =>
      (part.1, part.1)).map Prod.fst).flatten
    rw [chunks, sseChunks_eq, blocks_flatten (by decide)]

theorem zeros_onGrid (first second : Segment) (some : second.len ≠ 0) :
    OnGrid sseChunkSize 0 (zeros [first, second]) ↔ sseChunkSize ∣ first.len := by
  have nonempty : List.replicate second.len (0 : UInt8) ≠ [] := by
    rw [ne_eq, List.replicate_eq_nil_iff]
    exact some
  simp [zeros, onGrid_cons, onGrid_nil, nonempty]

theorem smallEngine_extents (first second : Segment) (one : first.extentId = 0)
    (two : second.extentId = 1) (inOne : first.offset + first.len ≤ 4190208)
    (inTwo : second.offset + second.len ≤ 4190208) :
    ∀ seg ∈ [first, second], (∃ place, resolveExtent (smallEngine none).devices seg.extentId = some place) ∧
      seg.offset + seg.len ≤ (smallEngine none).mainSb.extentCapacity := by
  have capacity : (smallEngine none).mainSb.extentCapacity = 4190208 := by decide
  intro seg member
  rw [capacity]
  simp only [List.mem_cons, List.not_mem_nil, or_false] at member
  obtain rfl | rfl := member
  · rw [one]
    exact ⟨⟨(0, 0), by decide⟩, inOne⟩
  · rw [two]
    exact ⟨⟨(0, 1), by decide⟩, inTwo⟩

/-- A chunk in one segment and a byte in the next. -/
theorem feedStored_exact_iff_onGrid_chunk :
    FeedsExactly taggingCodec (smallEngine none)
      (zeroRecord [⟨0, 0, 65536, []⟩, ⟨1, 0, 1, []⟩]) (some []) 0 1
      (zeros [⟨0, 0, 65536, []⟩, ⟨1, 0, 1, []⟩]).flatten := by
  have given := zeroRecord_sealed
    (smallEngine_extents ⟨0, 0, 65536, []⟩ ⟨1, 0, 1, []⟩ rfl rfl (by decide) (by decide))
  have grid := (zeros_onGrid ⟨0, 0, 65536, []⟩ ⟨1, 0, 1, []⟩ one_ne_zero).mpr (by decide)
  exact (feedStored_exact_iff_onGrid given 0 1).1 grid

/-- The first segment fills an extent, of which the capacity is no multiple of the chunk size. -/
theorem feedStored_full_extent :
    ∃ (codec : Codec) (e : EngineState) (m : ObjectMeta) (sse : SseInfo) (sseKey : Option Bytes)
      (dataKey packed : Bytes) (pieces : List Bytes),
      SealedIn codec e m sse sseKey dataKey packed pieces ∧ ¬e.Failing ∧
        ¬FeedsExactly codec e m sseKey 0 1 packed := by
  have given := zeroRecord_sealed
    (smallEngine_extents ⟨0, 0, 4190208, []⟩ ⟨1, 0, 1, []⟩ rfl rfl (by decide) (by decide))
  have calm : ¬(smallEngine none).Failing := by
    intro failing
    obtain ⟨disk, member, some⟩ | some := failing
    · obtain rfl := List.mem_singleton.mp member
      exact some rfl
    · exact some rfl
  have cut := mt (zeros_onGrid ⟨0, 0, 4190208, []⟩ ⟨1, 0, 1, []⟩ one_ne_zero).mp (by decide)
  exact ⟨_, _, _, _, _, _, _, _, given, calm, fun feeds => cut (onGrid_of_feedsExactly given calm feeds)⟩

end FastS3.Engine
