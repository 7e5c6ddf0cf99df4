import FastS3.Alloc.Accounting
import FastS3.Alloc.Rollback

namespace FastS3.Alloc

open FastS3.Core Data

/-! Segments that are accounted ahead of their objects.

Every call of `add_object` takes as many segments of an extent and a length for accounted as the draft
has noted, whatever the calls before it have taken.
-/

section Parts

variable {f : Nat} {parts : List Nat}

theorem sum_min_of_le (small : ∀ part ∈ parts, part ≤ f) : (parts.map (min f)).sum = parts.sum := by
  have same : parts.map (min f) = parts.map id :=
    List.map_congr_left fun part member => Nat.min_eq_right (small part member)
  rw [same, List.map_id]

theorem sum_min_of_zero (zero : ∀ part ∈ parts, part = 0) : (parts.map (min f)).sum = 0 := by
  rw [List.sum_eq_zero]
  intro taken member
  obtain ⟨part, here, rfl⟩ := List.mem_map.mp member
  rw [zero part here, Nat.min_zero]

theorem le_sum_min (enough : f ≤ parts.sum) : f ≤ (parts.map (min f)).sum := by
  by_cases large : ∃ part ∈ parts, f ≤ part
  · obtain ⟨part, member, whole⟩ := large
    have taken : min f part ≤ (parts.map (min f)).sum :=
      List.le_sum_of_mem (List.mem_map_of_mem member)
    rwa [Nat.min_eq_left whole] at taken
  · have small : ∀ part ∈ parts, part ≤ f := by
      intro part member
      by_contra more
      exact large ⟨part, member, by omega⟩
    rwa [sum_min_of_le small]

/-- They take it only once if they are not more than the number, or only one of them is not zero. -/
theorem sum_min_eq_iff (enough : f ≤ parts.sum) :
    (parts.map (min f)).sum = f ↔ f = 0 ∨ parts.sum = f ∨ parts.countP (0 < ·) ≤ 1 := by
  constructor
  · intro once
    by_cases none : f = 0
    · exact .inl none
    · by_cases small : ∀ part ∈ parts, part ≤ f
      · rw [sum_min_of_le small] at once
        exact .inr (.inl once)
      · obtain ⟨part, member, more⟩ : ∃ part ∈ parts, f < part := by
          by_contra never
          apply small
          intro part member
          by_contra more
          exact never ⟨part, member, by omega⟩
        obtain ⟨before, after, rfl⟩ := List.append_of_mem member
        rw [List.map_append, List.map_cons, List.sum_append, List.sum_cons,
          Nat.min_eq_left more.le] at once
        have zero : ∀ side : List Nat, (side.map (min f)).sum = 0 → side.countP (0 < ·) = 0 := by
          intro side empty
          rw [List.countP_eq_zero]
          intro other here positive
          have taken : min f other ≤ (side.map (min f)).sum :=
            List.le_sum_of_mem (List.mem_map_of_mem here)
          simp only [decide_eq_true_eq] at positive
          omega
        right
        right
        rw [List.countP_append, List.countP_cons, zero before (by omega), zero after (by omega)]
        split
        · omega
        · omega
  · intro cases'
    obtain none | whole | few := cases'
    · rw [none, List.sum_eq_zero]
      intro taken member
      obtain ⟨part, _, rfl⟩ := List.mem_map.mp member
      exact Nat.zero_min _
    · rw [sum_min_of_le, whole]
      intro part member
      rw [← whole]
      exact List.le_sum_of_mem member
    · induction parts with
      | nil => exact (Nat.le_zero.mp enough).symm
      | cons part parts ih =>
        rw [List.sum_cons] at enough
        rw [List.countP_cons] at few
        rw [List.map_cons, List.sum_cons]
        by_cases zero : part = 0
        · rw [ih (by omega) (by omega)]
          omega
        · have positive : 0 < part := Nat.pos_of_ne_zero zero
          rw [decide_eq_true positive, if_pos rfl] at few
          have others : ∀ other ∈ parts, other = 0 := by
            have empty : parts.countP (0 < ·) = 0 := by omega
            intro other member
            have notPositive := List.countP_eq_zero.mp empty other member
            simpa using notPositive
          rw [sum_min_of_zero others]
          rw [List.sum_eq_zero others] at enough
          omega

end Parts

def segAmounts (segs : List Segment) : List (Nat × Nat) :=
  segs.map fun s => (s.extentId, s.len)

/-- The segments that are noted while an object is written, and the objects that are added then. -/
def preaccounted (session : Allocator × Staged) (noted : List Segment) (added : List (List Segment)) :
    Allocator × Staged :=
  (noted.map DraftCall.noteInflightSegment ++ added.map DraftCall.addObject).foldl DraftCall.run session

/-- What the calls of `add_object` take for accounted when these were noted. -/
def coveredBy (noted : List (Nat × Nat)) (added : List (List Segment)) : Multiset (Nat × Nat) :=
  (added.map fun segs => (covered (fun key => noted.count key) segs : Multiset (Nat × Nat))).sum

section Calls

variable {a : Allocator} {draft : Staged}

theorem count_covered (preCounted : Nat × Nat → Nat) (segs : List Segment) (key : Nat × Nat) :
    (covered preCounted segs).count key = min (preCounted key) ((segAmounts segs).count key) := by
  induction segs generalizing preCounted with
  | nil => rw [covered, segAmounts, List.map_nil, List.count_nil, Nat.min_zero]
  | cons s segs ih =>
    simp only [covered, segAmounts, List.map_cons, List.count_cons]
    simp only [segAmounts] at ih
    split
    · next counted =>
      rw [List.count_cons, ih]
      by_cases here : key = (s.extentId, s.len)
      · rw [here, Function.update_self, beq_self_eq_true, if_pos rfl]
        omega
      · have other : ((s.extentId, s.len) == key) = false := beq_eq_false_iff_ne.mpr (Ne.symm here)
        rw [Function.update_of_ne here, other]
        simp
    · next uncounted =>
      rw [ih]
      by_cases here : (s.extentId, s.len) = key
      · rw [← here]
        omega
      · rw [beq_eq_false_iff_ne.mpr here]
        simp

theorem coe_count_amounts (amounts : List (Nat × Nat)) (key : Nat × Nat) :
    (amounts : Multiset (Nat × Nat)).count key = amounts.count key := by
  rw [Multiset.coe_count]
  congr 1
  exact lawful_beq_subsingleton _ _

theorem count_coveredBy (noted : List (Nat × Nat)) (added : List (List Segment)) (key : Nat × Nat) :
    (coveredBy noted added).count key =
      ((added.map fun segs => (segAmounts segs).count key).map (min (noted.count key))).sum := by
  induction added with
  | nil => rfl
  | cons segs added ih =>
    simp only [coveredBy, List.map_cons, List.sum_cons] at ih ⊢
    rw [Multiset.count_add, ih, coe_count_amounts, count_covered]

theorem segAmounts_flatten_count (added : List (List Segment)) (key : Nat × Nat) :
    (segAmounts added.flatten).count key = (added.map fun segs => (segAmounts segs).count key).sum := by
  rw [segAmounts, List.map_flatten, List.count_flatten, List.map_map]
  rfl

theorem addObject_records (a : Allocator) (draft : Staged) (segs : List Segment) :
    ((a.addObject draft segs).2.liveInc =
      draft.liveInc ++ uncovered (fun key => draft.inflight.count key) segs) ∧
    (∀ e, (a.addObject draft segs).1.liveBytes e =
      a.liveBytes e + liveTotal (uncovered (fun key => draft.inflight.count key) segs) e) ∧
    (a.addObject draft segs).2.inflight = draft.inflight ∧
    (a.addObject draft segs).2.liveDec = draft.liveDec := by
  unfold Allocator.addObject
  split
  · next empty =>
    subst empty
    simp [uncovered, liveTotal]
  · rw [Allocator.addSegments_eq, Allocator.noteRefs_eq, Allocator.foldl_addLive,
      Allocator.foldl_incRef]
    exact ⟨rfl, fun _ => rfl, rfl, rfl⟩

/-- What the calls record is what the counters grow by, and nothing is recorded as taken away. -/
structure Grown (before after : Allocator × Staged) (amounts : List (Nat × Nat)) : Prop where
  liveInc : after.2.liveInc = before.2.liveInc ++ amounts
  liveBytes : ∀ e, after.1.liveBytes e = before.1.liveBytes e + liveTotal amounts e
  liveDec : after.2.liveDec = before.2.liveDec

theorem Grown.trans {before middle after : Allocator × Staged} {first second : List (Nat × Nat)}
    (left : Grown before middle first) (right : Grown middle after second) :
    Grown before after (first ++ second) where
  liveInc := by rw [right.liveInc, left.liveInc, List.append_assoc]
  liveBytes := by
    intro e
    rw [right.liveBytes e, left.liveBytes e, liveTotal_append, add_assoc]
  liveDec := right.liveDec.trans left.liveDec

theorem noted_grown (session : Allocator × Staged) (noted : List Segment) :
    Grown session ((noted.map DraftCall.noteInflightSegment).foldl DraftCall.run session)
        (segAmounts noted) ∧
      ((noted.map DraftCall.noteInflightSegment).foldl DraftCall.run session).2.inflight =
        session.2.inflight ++ segAmounts noted := by
  induction noted generalizing session with
  | nil =>
    refine ⟨⟨(List.append_nil _).symm, ?_, rfl⟩, (List.append_nil _).symm⟩
    intro e
    exact (add_zero _).symm
  | cons s noted ih =>
    obtain ⟨rest, inflight⟩ := ih (session.1.noteInflightSegment session.2 s)
    have first : Grown session (session.1.noteInflightSegment session.2 s)
        [(s.extentId, s.len)] := by
      refine ⟨rfl, ?_, rfl⟩
      intro e
      rw [liveTotal_singleton]
      exact bump_apply _ _ _ _
    refine ⟨first.trans rest, ?_⟩
    rw [List.map_cons, List.foldl_cons]
    refine inflight.trans ?_
    rw [Allocator.noteInflightSegment, List.append_assoc]
    rfl

theorem added_grown (session : Allocator × Staged) (added : List (List Segment)) :
    Grown session ((added.map DraftCall.addObject).foldl DraftCall.run session)
      (added.flatMap fun segs => uncovered (fun key => session.2.inflight.count key) segs) := by
  induction added generalizing session with
  | nil =>
    refine ⟨(List.append_nil _).symm, ?_, rfl⟩
    intro e
    exact (add_zero _).symm
  | cons segs added ih =>
    obtain ⟨liveInc, liveBytes, inflight, liveDec⟩ := addObject_records session.1 session.2 segs
    have rest := ih (session.1.addObject session.2 segs)
    rw [inflight] at rest
    exact Grown.trans ⟨liveInc, liveBytes, liveDec⟩ rest

theorem Grown.back {before after : Allocator × Staged} {amounts : List (Nat × Nat)}
    (grown : Grown before after amounts) (e : Nat) :
    (after.1.rollback after.2).liveBytes e = (before.1.rollback before.2).liveBytes e := by
  rw [(after.1.rollback_spec after.2).liveBytes, (before.1.rollback_spec before.2).liveBytes,
    grown.liveInc, grown.liveBytes, grown.liveDec, liveTotal_append]
  abel

end Calls

/-- The objects count with their lengths, in the live bytes and in what a rollback takes back. -/
structure CountedOnce (before after : Allocator × Staged) (added : List (List Segment)) : Prop where
  recorded : ∀ e, pendingBytes (after.2.liveInc : Multiset (Nat × Nat)) e =
    pendingBytes (before.2.liveInc : Multiset (Nat × Nat)) e +
      pendingBytes (segAmounts added.flatten : Multiset (Nat × Nat)) e
  live : ∀ e, after.1.liveBytes e = before.1.liveBytes e + liveTotal (segAmounts added.flatten) e
  back : ∀ e, (after.1.rollback after.2).liveBytes e = (before.1.rollback before.2).liveBytes e

section Once

variable {noted : List Segment} {added : List (List Segment)}

theorem pendingBytes_eq_iff {part whole : Multiset (Nat × Nat)} (within : part ≤ whole) :
    (∀ e, pendingBytes part e = pendingBytes whole e) ↔
      ∀ key : Nat × Nat, 0 < key.2 → part.count key = whole.count key := by
  obtain ⟨more, rfl⟩ := Multiset.le_iff_exists_add.mp within
  have zero : (∀ e, pendingBytes part e = pendingBytes (part + more) e) ↔
      ∀ e, pendingBytes more e = 0 := by
    apply forall_congr'
    intro e
    rw [pendingBytes_add]
    omega
  rw [zero]
  constructor
  · intro empty key positive
    rw [Multiset.count_add]
    by_contra different
    have member : key ∈ more := by
      rw [← Multiset.count_pos]
      omega
    have bytes := empty key.1
    rw [pendingBytes, Multiset.sum_eq_zero_iff] at bytes
    have here := bytes _ (Multiset.mem_map_of_mem _ member)
    rw [if_pos rfl] at here
    omega
  · intro same e
    by_contra positive
    obtain ⟨change, member, _, nonempty⟩ := pendingBytes_pos (Nat.pos_of_ne_zero positive)
    have counts := same change nonempty
    rw [Multiset.count_add] at counts
    have present := Multiset.count_pos.mpr member
    omega

/-- No segments of one extent and length are noted in part where several objects have some of them. -/
def NotedAlike (noted : List Segment) (added : List (List Segment)) : Prop :=
  ∀ key ∈ segAmounts noted, 0 < key.2 →
    (segAmounts added.flatten).count key = (segAmounts noted).count key ∨
      (added.countP fun segs => key ∈ segAmounts segs) ≤ 1

theorem countP_mem_segAmounts (key : Nat × Nat) (added : List (List Segment)) :
    (added.countP fun segs => key ∈ segAmounts segs) =
      (added.map fun segs => (segAmounts segs).count key).countP (0 < ·) := by
  rw [List.countP_map]
  apply List.countP_congr
  intro segs _
  simp only [decide_eq_true_eq, Function.comp_apply, List.count_pos_iff]

theorem uncovered_flatMap (counts : Nat × Nat → Nat) (added : List (List Segment)) :
    ((segAmounts added.flatten : List (Nat × Nat)) : Multiset (Nat × Nat)) =
      (added.map fun segs => (covered counts segs : Multiset (Nat × Nat))).sum +
        ((added.flatMap fun segs => uncovered counts segs : List (Nat × Nat)) :
          Multiset (Nat × Nat)) := by
  induction added with
  | nil => rfl
  | cons segs added ih =>
    have split := covered_add_uncovered counts segs
    rw [List.flatten_cons, segAmounts, List.map_append, ← Multiset.coe_add, split, ← segAmounts, ih,
      List.map_cons, List.sum_cons, List.flatMap_cons, ← Multiset.coe_add]
    abel

instance (noted : List Segment) (added : List (List Segment)) : Decidable (NotedAlike noted added) := by
  unfold NotedAlike
  infer_instance

/-- The bytes of the objects count once exactly if of no extent and length only a part is noted while
several objects have such segments. -/
theorem preaccounted_once_iff (a : Allocator) (draft : Staged) (fresh : draft.inflight = [])
    (contained : noted.Subperm added.flatten) :
    CountedOnce (a, draft) (preaccounted (a, draft) noted added) added ↔ NotedAlike noted added := by
  obtain ⟨first, inflight⟩ := noted_grown (a, draft) noted
  have rest := added_grown ((noted.map DraftCall.noteInflightSegment).foldl DraftCall.run (a, draft))
    added
  rw [inflight, fresh, List.nil_append] at rest
  have grown := first.trans rest
  rw [← List.foldl_append, ← preaccounted] at grown
  have keys : (segAmounts noted).Subperm (segAmounts added.flatten) := by
    obtain ⟨same, permuted, inside⟩ := contained
    exact ⟨segAmounts same, permuted.map _, inside.map _⟩
  have enough : ∀ key, (segAmounts noted).count key ≤
      (added.map fun segs => (segAmounts segs).count key).sum := by
    intro key
    rw [← segAmounts_flatten_count]
    exact keys.count_le key
  have within : (segAmounts noted : Multiset (Nat × Nat)) ≤ coveredBy (segAmounts noted) added := by
    rw [Multiset.le_iff_count]
    intro key
    rw [coe_count_amounts, count_coveredBy]
    exact le_sum_min (enough key)
  have split := uncovered_flatMap (fun key => (segAmounts noted).count key) added
  rw [← coveredBy] at split
  have recorded : (∀ e, pendingBytes (segAmounts noted : Multiset (Nat × Nat)) e =
      pendingBytes (coveredBy (segAmounts noted) added) e) ↔ NotedAlike noted added := by
    rw [pendingBytes_eq_iff within]
    apply forall_congr'
    intro key
    rw [coe_count_amounts, count_coveredBy, eq_comm]
    rw [sum_min_eq_iff (enough key), ← countP_mem_segAmounts, ← segAmounts_flatten_count,
      List.count_eq_zero]
    constructor
    · intro held member positive
      obtain absent | all | few := held positive
      · exact absurd member absent
      · exact .inl all
      · exact .inr few
    · intro held positive
      by_cases member : key ∈ segAmounts noted
      · exact .inr (held member positive)
      · exact .inl member
  rw [← recorded]
  constructor
  · intro once e
    have amount := once.recorded e
    rw [grown.liveInc, ← Multiset.coe_add, ← Multiset.coe_add, pendingBytes_add, pendingBytes_add,
      split, pendingBytes_add] at amount
    omega
  · intro same
    have amount : ∀ e, pendingBytes (segAmounts noted ++ added.flatMap fun segs =>
          uncovered (fun key => (segAmounts noted).count key) segs : List (Nat × Nat)) e =
        pendingBytes (segAmounts added.flatten : Multiset (Nat × Nat)) e := by
      intro e
      rw [← Multiset.coe_add, pendingBytes_add, split, pendingBytes_add, same e]
    refine ⟨?_, ?_, grown.back⟩
    · intro e
      rw [grown.liveInc, ← Multiset.coe_add, pendingBytes_add, amount e]
    · intro e
      rw [grown.liveBytes e, liveTotal_eq_pendingBytes, liveTotal_eq_pendingBytes, amount e]

end Once

def equalSegments : List Segment :=
  [⟨1, 0, 4096, []⟩, ⟨1, 4096, 4096, []⟩]

/-- The second object is taken for accounted, too. -/
theorem preaccounted_misses :
    ¬CountedOnce (Allocator.new 4, {})
      (preaccounted (Allocator.new 4, {}) [⟨1, 0, 4096, []⟩] (equalSegments.map fun s => [s]))
      (equalSegments.map fun s => [s]) := by
  intro once
  have live := once.live 1
  revert live
  decide

/-- One object with both of them counts them once. -/
theorem preaccounted_once_together :
    CountedOnce (Allocator.new 4, {})
      (preaccounted (Allocator.new 4, {}) [⟨1, 0, 4096, []⟩] [equalSegments]) [equalSegments] := by
  apply (preaccounted_once_iff (Allocator.new 4) {} rfl (by decide)).mpr
  decide

end FastS3.Alloc
