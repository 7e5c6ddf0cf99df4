import Mathlib.Data.List.Basic
import Mathlib.Order.Lattice

namespace FastS3.Data

/-! Enumerations that are fetched page by page.

A page shows the first entries of a list behind a marker, and its last entry is the marker
of the next page.  Every entry is met once exactly when the list is in the order of the
ranks by which markers are compared.
-/

variable {α ω μ ρ π ε : Type}

/-- The pages from a marker on, until one says that nothing follows; `none` when the fuel
does not last. -/
def follow (page : Option μ → ρ → Except ε π) (more : π → Bool) (marker : π → Option μ) :
    Nat → (Nat → ρ) → Option μ → Except ε (Option (List π))
  | 0, _, _ => .ok none
  | fuel + 1, requests, after => do
      let shown ← page after (requests 0)
      if more shown then
        let rest ← follow page more marker fuel (fun i => requests (i + 1)) (marker shown)
        return rest.map (shown :: ·)
      else return some [shown]

variable {requests : Nat → ρ} {fuel : Nat} {marker : π → Option μ} {after : Option μ}
  {more : π → Bool} {shown : List π}

theorem follow_succ {page : Option μ → ρ → Except ε π}
    (run : follow page more marker fuel requests after = .ok (some shown)) :
    follow page more marker (fuel + 1) requests after = .ok (some shown) := by
  induction fuel generalizing requests after shown with
  | zero => cases run
  | succ fuel ih =>
    unfold follow at run ⊢
    cases current : page after (requests 0) with
    | error reason =>
      rw [current] at run
      cases run
    | ok p =>
      simp only [current, bind, Except.bind] at run ⊢
      cases full : more p with
      | false =>
        simp only [full, Bool.false_eq_true, if_false] at run ⊢
        exact run
      | true =>
        simp only [full, if_true] at run ⊢
        cases rest : follow page more marker fuel (fun i => requests (i + 1)) (marker p) with
        | error reason =>
          rw [rest] at run
          cases run
        | ok found =>
          rw [rest] at run
          cases found with
          | none => cases run
          | some others =>
            rw [ih rest]
            exact run

theorem follow_mono {page : Option μ → ρ → Except ε π} {larger : Nat}
    (run : follow page more marker fuel requests after = .ok (some shown)) (le : fuel ≤ larger) :
    follow page more marker larger requests after = .ok (some shown) := by
  induction le with
  | refl => exact run
  | step _ ih => exact follow_succ ih

theorem follow_unique {page : Option μ → ρ → Except ε π} {fuel' : Nat} {shown' : List π}
    (run : follow page more marker fuel requests after = .ok (some shown))
    (run' : follow page more marker fuel' requests after = .ok (some shown')) : shown = shown' := by
  have longer := follow_mono run (Nat.le_max_left fuel fuel')
  rw [follow_mono run' (Nat.le_max_right fuel fuel')] at longer
  exact (Option.some.inj (Except.ok.inj longer)).symm

/-- How a request cuts a page from the entries that are left, and what the page looks like. -/
structure Paging (α ω μ ρ π : Type) where
  rank : α → ω
  cut : ρ → List α → Nat
  full : ρ → List α → Bool
  render : List α → Bool → π
  name : α → μ
  more : π → Bool
  marker : π → Option μ
  more_render : ∀ chunk flag, more (render chunk flag) = flag
  marker_render : ∀ chunk, marker (render chunk true) = chunk.getLast?.map name

namespace Paging

variable (paging : Paging α ω μ ρ π)

def pageOf (request : ρ) (left : List α) : π :=
  paging.render (left.take (paging.cut request left)) (paging.full request left)

/-- A request that takes an entry if there is one, and that a short rest does not fill. -/
structure Sound (request : ρ) : Prop where
  takes : ∀ left, left ≠ [] → 0 < paging.cut request left
  overflows : ∀ left, paging.cut request left < left.length → paging.full request left = true
  ends : paging.full request [] = false

def pages (chunks : List (List α)) (last : List α) : List π :=
  chunks.map (paging.render · true) ++ [paging.render last false]

def Ordered [LT ω] (entries : List α) : Prop :=
  entries.Pairwise fun x y => paging.rank x < paging.rank y

end Paging

/-- A page behind an entry shows the later entries of the list that are greater.  The page
has to be so only when all earlier entries are smaller. -/
structure PagedScan [LinearOrder ω] (paging : Paging α ω μ ρ π) (items : List α)
    (page : Option μ → ρ → Except ε π) : Prop where
  first : ∀ request, page none request = .ok (paging.pageOf request items)
  next : ∀ before item rest request, items = before ++ item :: rest →
    (∀ x ∈ before, paging.rank x < paging.rank item) →
    page (some (paging.name item)) request =
      .ok (paging.pageOf request (rest.filter fun x => paging.rank item < paging.rank x))

section Shown

variable {paging : Paging α ω μ ρ π} {shows : π → α → Prop}
  (render : ∀ chunk flag x, shows (paging.render chunk flag) x ↔ x ∈ chunk)

variable {chunks : List (List α)} {last : List α}

theorem Paging.mem_pages {page : π} (inside : page ∈ paging.pages chunks last) : ∃ chunk flag,
      page = paging.render chunk flag ∧ chunk.Sublist (chunks.flatten ++ last) := by
  rcases List.mem_append.mp inside with earlier | final
  · obtain ⟨chunk, chunkIn, rfl⟩ := List.mem_map.mp earlier
    exact ⟨chunk, true, rfl,
      (List.sublist_flatten_of_mem chunkIn).trans (List.sublist_append_left _ _)⟩
  · rw [List.mem_singleton.mp final]
    exact ⟨last, false, rfl, List.sublist_append_right _ _⟩

include render

theorem Paging.shown_iff {x : α} :
    (∃ page ∈ paging.pages chunks last, shows page x) ↔ x ∈ chunks.flatten ++ last := by
  simp only [Paging.pages, List.mem_append, List.mem_map, List.mem_singleton, List.mem_flatten]
  constructor
  · rintro ⟨page, ⟨chunk, inside, rfl⟩ | rfl, shown⟩
    · exact .inl ⟨chunk, inside, (render chunk true x).mp shown⟩
    · exact .inr ((render last false x).mp shown)
  · rintro (⟨chunk, inside, here⟩ | here)
    · exact ⟨_, .inl ⟨chunk, inside, rfl⟩, (render chunk true x).mpr here⟩
    · exact ⟨_, .inr rfl, (render last false x).mpr here⟩

theorem Paging.pages_pairwise {R : α → α → Prop} (related : (chunks.flatten ++ last).Pairwise R) :
    (paging.pages chunks last).Pairwise fun page page' =>
      ∀ x y, shows page x → shows page' y → R x y := by
  obtain ⟨earlier, _, apart⟩ := List.pairwise_append.mp related
  rw [List.pairwise_flatten] at earlier
  refine List.pairwise_append.mpr ⟨?_, List.pairwise_singleton _ _, ?_⟩
  · rw [List.pairwise_map]
    apply earlier.2.imp
    intro chunk chunk' across x y shownX shownY
    exact across x ((render _ _ x).mp shownX) y ((render _ _ y).mp shownY)
  · intro page inside page' final x y shownX shownY
    obtain ⟨chunk, chunkIn, rfl⟩ := List.mem_map.mp inside
    rw [List.mem_singleton.mp final] at shownY
    exact apart x (List.mem_flatten.mpr ⟨chunk, chunkIn, (render _ _ x).mp shownX⟩) y
      ((render _ _ y).mp shownY)

end Shown

namespace PagedScan

variable [LinearOrder ω] {paging : Paging α ω μ ρ π} {items : List α}
  {page : Option μ → ρ → Except ε π}

def After (paging : Paging α ω μ ρ π) (before : List α) (after : Option μ) : Prop :=
  after = before.getLast?.map paging.name

theorem page_eq (scan : PagedScan paging items page) {before left : List α} {after : Option μ}
    (split : items = before ++ left) (sorted : paging.Ordered before)
    (beyond : ∀ item, before.getLast? = some item → ∀ x ∈ left, paging.rank item < paging.rank x)
    (marked : After paging before after) (request : ρ) :
    page after request = .ok (paging.pageOf request left) := by
  unfold After at marked
  cases final : before.getLast? with
  | none =>
    obtain rfl : before = [] := List.getLast?_eq_none_iff.mp final
    subst marked
    subst split
    exact scan.first request
  | some item =>
    obtain ⟨init, rfl⟩ := List.getLast?_eq_some_iff.mp final
    rw [final, Option.map_some] at marked
    subst marked
    have smaller : ∀ x ∈ init, paging.rank x < paging.rank item := by
      intro x inside
      exact (List.pairwise_append.mp sorted).2.2 x inside item (List.mem_singleton_self item)
    rw [scan.next init item left request (by simpa using split) smaller]
    have all : (left.filter fun x => paging.rank item < paging.rank x) = left := by
      rw [List.filter_eq_self]
      intro x inside
      exact decide_eq_true (beyond item final x inside)
    rw [all]

section Forward

variable (scan : PagedScan paging items page) (sorted : paging.Ordered items)

include scan sorted

theorem follow_from {requests : Nat → ρ} (sound : ∀ i, paging.Sound (requests i)) (bound : Nat)
    {before left : List α} {after : Option μ} (short : left.length ≤ bound)
    (split : items = before ++ left) (marked : After paging before after) :
    ∃ fuel chunks last, follow page paging.more paging.marker fuel requests after =
      .ok (some (paging.pages chunks last)) ∧ chunks.flatten ++ last = left := by
  induction bound generalizing requests before left after with
  | zero =>
    obtain rfl : left = [] := List.length_eq_zero_iff.mp (Nat.le_zero.mp short)
    have ordered := split ▸ sorted
    have shown := scan.page_eq split (List.pairwise_append.mp ordered).1
      (fun _ _ x inside => absurd inside List.not_mem_nil) marked (requests 0)
    refine ⟨1, [], [], ?_, rfl⟩
    simp only [follow, shown, bind, Except.bind, Paging.pageOf, (sound 0).ends,
      paging.more_render, List.take_nil]
    rfl
  | succ bound ih =>
    have ordered := split ▸ sorted
    obtain ⟨earlier, _, apart⟩ := List.pairwise_append.mp ordered
    have shown := scan.page_eq split earlier
      (fun item final x inside => apart item (List.mem_of_getLast? final) x inside) marked
      (requests 0)
    generalize whole : paging.cut (requests 0) left = count at *
    cases full : paging.full (requests 0) left with
    | false =>
      have enough : left.length ≤ count := by
        by_contra less
        have excess := (sound 0).overflows left (by omega)
        rw [full] at excess
        cases excess
      refine ⟨1, [], left, ?_, rfl⟩
      simp only [follow, shown, bind, Except.bind, Paging.pageOf, full, whole,
        paging.more_render, List.take_of_length_le enough]
      rfl
    | true =>
      have some : left ≠ [] := by
        rintro rfl
        rw [(sound 0).ends] at full
        cases full
      have positive : 0 < count := whole ▸ (sound 0).takes left some
      have rest : items = (before ++ left.take count) ++ left.drop count := by
        rw [List.append_assoc, List.take_append_drop, split]
      have nonempty : left.take count ≠ [] := by
        intro nothing
        rw [List.take_eq_nil_iff] at nothing
        rcases nothing with zero | nil
        · omega
        · exact some nil
      have marked' : After paging (before ++ left.take count)
          ((left.take count).getLast?.map paging.name) := by
        rw [After, List.getLast?_append_of_ne_nil _ nonempty]
      have fewer : (left.drop count).length ≤ bound := by
        have := List.length_pos_iff.mpr some
        rw [List.length_drop]
        omega
      obtain ⟨fuel, chunks, last, run, covers⟩ := ih (fun i => sound (i + 1)) fewer rest marked'
      refine ⟨fuel + 1, left.take count :: chunks, last, ?_, ?_⟩
      · simp only [follow, shown, bind, Except.bind, Paging.pageOf, full, whole,
          paging.more_render, paging.marker_render, if_true, run]
        rfl
      · rw [List.flatten_cons, List.append_assoc, covers, List.take_append_drop]

theorem follow_sorted {requests : Nat → ρ} (sound : ∀ i, paging.Sound (requests i)) :
    ∃ fuel chunks last, follow page paging.more paging.marker fuel requests none =
      .ok (some (paging.pages chunks last)) ∧ chunks.flatten ++ last = items := by
  have start : items = [] ++ items := rfl
  exact scan.follow_from sorted sound items.length (Nat.le_refl _) start rfl

end Forward

theorem related_of_pairwise {R S : α → α → Prop} (asymm : ∀ x y, S x y → ¬ S y x)
    {entries : List α} (ordered : entries.Pairwise S) (related : entries.Pairwise R) {x y : α}
    (here : x ∈ entries) (there : y ∈ entries) (less : S x y) : R x y := by
  induction entries with
  | nil => exact absurd here List.not_mem_nil
  | cons head tail ih =>
    obtain ⟨before, ordered⟩ := List.pairwise_cons.mp ordered
    obtain ⟨relates, related⟩ := List.pairwise_cons.mp related
    rcases List.mem_cons.mp here with rfl | later
    · rcases List.mem_cons.mp there with rfl | after
      · exact absurd less (asymm _ _ less)
      · exact relates y after
    · rcases List.mem_cons.mp there with rfl | after
      · exact absurd less (asymm _ _ (before x later))
      · exact ih ordered related later after

/-- What is known of pages behind any marker: they are cut from entries behind it. -/
structure Forwards (paging : Paging α ω μ ρ π) (items : List α)
    (page : Option μ → ρ → Except ε π) (shows : π → α → Prop) : Prop where
  render : ∀ chunk flag x, shows (paging.render chunk flag) x ↔ x ∈ chunk
  cuts : ∀ after request, ∃ left, page after request = .ok (paging.pageOf request left) ∧
    (∀ x ∈ left, x ∈ items) ∧ ∀ item ∈ items, after = some (paging.name item) →
      ∀ x ∈ left, paging.rank item < paging.rank x

namespace Forwards

variable {shows : π → α → Prop} (forwards : Forwards paging items page shows)

include forwards

theorem above {item : α} {request : ρ} {shown : π} {x : α} (inside : item ∈ items)
    (found : page (some (paging.name item)) request = .ok shown) (showsX : shows shown x) :
    paging.rank item < paging.rank x := by
  obtain ⟨left, cut, _, behind⟩ := forwards.cuts (some (paging.name item)) request
  rw [cut] at found
  cases found
  exact behind item inside rfl x (List.mem_of_mem_take ((forwards.render _ _ x).mp showsX))

theorem marks {after : Option μ} {request : ρ} {shown : π} (sound : paging.Sound request)
    (found : page after request = .ok shown) (more : paging.more shown = true) :
    ∃ x ∈ items, shows shown x ∧ paging.marker shown = some (paging.name x) := by
  obtain ⟨left, cut, stored, _⟩ := forwards.cuts after request
  rw [cut] at found
  cases found
  rw [Paging.pageOf, paging.more_render] at more
  have some : left ≠ [] := by
    rintro rfl
    rw [sound.ends] at more
    cases more
  have nonempty : left.take (paging.cut request left) ≠ [] := by
    have positive := sound.takes left some
    intro nothing
    rcases List.take_eq_nil_iff.mp nothing with zero | nil
    · exact absurd zero (Nat.ne_of_gt positive)
    · exact some nil
  obtain ⟨final, isLast⟩ := Option.ne_none_iff_exists'.mp
    (mt List.getLast?_eq_none_iff.mp nonempty)
  have member := List.mem_of_getLast? isLast
  refine ⟨final, stored final (List.mem_of_mem_take member), (forwards.render _ _ final).mpr member,
    ?_⟩
  rw [Paging.pageOf, more, paging.marker_render, isLast]
  rfl

end Forwards

section Backward

variable {shows : π → α → Prop} (forwards : Forwards paging items page shows)

include forwards

variable {requests : Nat → ρ} {fuel : Nat} {shown : List π}

theorem follow_above {item : α} (inside : item ∈ items) (sound : ∀ i, paging.Sound (requests i))
    (run : follow page paging.more paging.marker fuel requests (some (paging.name item)) =
      .ok (some shown)) : ∀ p ∈ shown, ∀ x, shows p x → paging.rank item < paging.rank x := by
  induction fuel generalizing requests item shown with
  | zero => cases run
  | succ fuel ih =>
    unfold follow at run
    cases current : page (some (paging.name item)) (requests 0) with
    | error reason =>
      rw [current] at run
      cases run
    | ok p =>
      have here : ∀ x, shows p x → paging.rank item < paging.rank x :=
        fun x showsX => forwards.above inside current showsX
      simp only [current, bind, Except.bind] at run
      cases more : paging.more p with
      | false =>
        simp only [more, Bool.false_eq_true, if_false] at run
        cases run
        intro q listed x showsX
        rw [List.mem_singleton.mp listed] at showsX
        exact here x showsX
      | true =>
        obtain ⟨y, member, showsY, marked⟩ := forwards.marks (sound 0) current more
        simp only [more, if_true, marked] at run
        cases rest : follow page paging.more paging.marker fuel (fun i => requests (i + 1))
            (some (paging.name y)) with
        | error reason =>
          rw [rest] at run
          cases run
        | ok found =>
          rw [rest] at run
          cases found with
          | none => cases run
          | some others =>
            cases run
            intro q listed x showsX
            rcases List.mem_cons.mp listed with rfl | later
            · exact here x showsX
            · exact (here y showsY).trans
                (ih member (fun i => sound (i + 1)) rest q later x showsX)

theorem sorted_from (scan : PagedScan paging items page) (nodup : (items.map paging.rank).Nodup)
    {before left : List α} {after : Option μ} (sound : ∀ i, paging.Sound (requests i))
    (split : items = before ++ left) (sorted : paging.Ordered before)
    (marked : After paging before after)
    (run : follow page paging.more paging.marker fuel requests after = .ok (some shown))
    (complete : ∀ x ∈ left, ∃ p ∈ shown, shows p x)
    (ascending : ∀ i rest, paging.pageOf (requests i) rest ∈ shown →
      paging.Ordered (rest.take (paging.cut (requests i) rest))) : paging.Ordered items := by
  induction fuel generalizing requests before left after shown with
  | zero => cases run
  | succ fuel ih =>
    -- an entry that is left behind the marker would not be shown any more
    have beyond : ∀ item, before.getLast? = some item →
        ∀ x ∈ left, paging.rank item < paging.rank x := by
      intro item final x inside
      unfold After at marked
      rw [final, Option.map_some] at marked
      subst marked
      obtain ⟨p, listed, showsX⟩ := complete x inside
      have member : item ∈ items := split ▸ List.mem_append_left _ (List.mem_of_getLast? final)
      exact follow_above forwards member sound run p listed x showsX
    have current := scan.page_eq split sorted beyond marked (requests 0)
    have joined : ∀ chunk rest, left = chunk ++ rest → paging.Ordered chunk →
        paging.Ordered (before ++ chunk) := by
      intro chunk rest cut ordered
      refine List.pairwise_append.mpr ⟨sorted, ordered, ?_⟩
      intro y earlier x inside
      have nonempty : before ≠ [] := List.ne_nil_of_mem earlier
      obtain ⟨item, final⟩ := Option.ne_none_iff_exists'.mp
        (mt List.getLast?_eq_none_iff.mp nonempty)
      have ahead := beyond item final x (cut ▸ List.mem_append_left rest inside)
      obtain ⟨init, rfl⟩ := List.getLast?_eq_some_iff.mp final
      rcases List.mem_append.mp earlier with inInit | isLast
      · exact ((List.pairwise_append.mp sorted).2.2 y inInit item
          (List.mem_singleton_self item)).trans ahead
      · rw [List.mem_singleton.mp isLast]
        exact ahead
    unfold follow at run
    simp only [current, bind, Except.bind] at run
    cases full : paging.full (requests 0) left with
    | false =>
      have enough : left.length ≤ paging.cut (requests 0) left := by
        by_contra less
        have excess := (sound 0).overflows left (by omega)
        rw [full] at excess
        cases excess
      simp only [Paging.pageOf, paging.more_render, full, Bool.false_eq_true, if_false] at run
      cases run
      have ordered := ascending 0 left (by simp [Paging.pageOf, full])
      rw [List.take_of_length_le enough] at ordered
      rw [split]
      exact joined left [] (List.append_nil left).symm ordered
    | true =>
      have some : left ≠ [] := by
        rintro rfl
        rw [(sound 0).ends] at full
        cases full
      have positive := (sound 0).takes left some
      simp only [Paging.pageOf, paging.more_render, paging.marker_render, full, if_true] at run
      cases rest : follow page paging.more paging.marker fuel (fun i => requests (i + 1))
          ((left.take (paging.cut (requests 0) left)).getLast?.map paging.name) with
      | error reason =>
        rw [rest] at run
        cases run
      | ok found =>
        rw [rest] at run
        cases found with
        | none => cases run
        | some others =>
          cases run
          have ordered := ascending 0 left (by simp [Paging.pageOf, full])
          generalize paging.cut (requests 0) left = count at *
          have cutLeft : left = left.take count ++ left.drop count :=
            (List.take_append_drop count left).symm
          have nonempty : left.take count ≠ [] := by
            intro nothing
            rw [List.take_eq_nil_iff] at nothing
            rcases nothing with zero | nil
            · omega
            · exact some nil
          have splitRest : items = (before ++ left.take count) ++ left.drop count := by
            rw [List.append_assoc, List.take_append_drop, split]
          have markedRest : After paging (before ++ left.take count)
              ((left.take count).getLast?.map paging.name) := by
            rw [After, List.getLast?_append_of_ne_nil _ nonempty]
          apply ih (fun i => sound (i + 1)) splitRest (joined _ _ cutLeft ordered)
            markedRest rest
          · intro x inside
            obtain ⟨p, listed, showsX⟩ :=
              complete x (cutLeft ▸ List.mem_append_right _ inside)
            rcases List.mem_cons.mp listed with rfl | later
            · have twice := (forwards.render _ _ x).mp showsX
              rw [splitRest, List.append_assoc, List.map_append, List.map_append] at nodup
              have apart := (List.nodup_append.mp (List.nodup_append.mp nodup).2.1).2.2
              exact absurd rfl (apart _ (List.mem_map_of_mem twice) _
                (List.mem_map_of_mem inside))
            · exact ⟨p, later, showsX⟩
          · intro i left' listed
            exact ascending (i + 1) left' (List.mem_cons_of_mem _ listed)

theorem sorted_of_follow (scan : PagedScan paging items page)
    (nodup : (items.map paging.rank).Nodup) (sound : ∀ i, paging.Sound (requests i))
    (run : follow page paging.more paging.marker fuel requests none = .ok (some shown))
    (complete : ∀ x ∈ items, ∃ p ∈ shown, shows p x)
    (ascending : ∀ i rest, paging.pageOf (requests i) rest ∈ shown →
      paging.Ordered (rest.take (paging.cut (requests i) rest))) : paging.Ordered items := by
  have start : items = [] ++ items := rfl
  exact sorted_from forwards scan nodup sound start List.Pairwise.nil rfl run complete ascending

end Backward

end PagedScan

end FastS3.Data
