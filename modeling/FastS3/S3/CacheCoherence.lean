import FastS3.Data.Runs
import FastS3.S3.GetObject
import Std.Data.String.ToNat

namespace FastS3.S3

open Data Engine
open FastS3.Core (Bytes CacheConfig ObjectCache slice utf8)
open Meta (utf8_eq validBucketName validBucketName_noNul)

/-! What the cache of hot objects returns.

An entry is known by the name of an object and its size only, and no operation removes it.  So it goes
stale exactly by a change that brings the name another body of the same size.
-/

theorem hexDigit_ofNat {n : Nat} (small : n < 16) :
    hexDigit (Char.ofNat (if n < 10 then '0'.toNat + n else 'a'.toNat + (n - 10))) = some n := by
  revert n
  decide

theorem hexDecode_hexEncode (bytes : Bytes) : hexDecode (hexEncode bytes).toList = some bytes := by
  rw [hexEncode, String.toList_ofList]
  induction bytes with
  | nil => rfl
  | cons b rest ih =>
    have high : b.toNat / 16 < 16 := Nat.div_lt_of_lt_mul b.toNat_lt
    have low : b.toNat % 16 < 16 := Nat.mod_lt _ (by decide)
    rw [List.flatMap_cons, List.cons_append, List.cons_append, List.nil_append, hexDecode,
      hexDigit_ofNat high, hexDigit_ofNat low, ih]
    simp only [Nat.div_add_mod, UInt8.ofNat_toNat]

theorem hexEncode_injective {left right : Bytes} (same : hexEncode left = hexEncode right) :
    left = right := by
  have decoded := hexDecode_hexEncode left
  rw [same, hexDecode_hexEncode] at decoded
  exact (Option.some.inj decoded).symm

theorem noNul_hexEncode (bytes : Bytes) : '\x00' ∉ (hexEncode bytes).toList := by
  have digit (n : Nat) (small : n < 16) :
      '\x00' ≠ Char.ofNat (if n < 10 then '0'.toNat + n else 'a'.toNat + (n - 10)) := by
    revert n
    decide
  rw [hexEncode, String.toList_ofList]
  intro inside
  obtain ⟨b, -, here⟩ := List.mem_flatMap.mp inside
  have high : b.toNat / 16 < 16 := Nat.div_lt_of_lt_mul b.toNat_lt
  have low : b.toNat % 16 < 16 := Nat.mod_lt _ (by decide)
  obtain first | second := List.mem_cons.mp here
  · exact digit _ high first
  · exact digit _ low (List.mem_singleton.mp second)

theorem noNul_toString (size : Nat) : '\x00' ∉ (toString size).toList := by
  rw [show toString size = size.repr from rfl, Nat.toList_repr]
  intro inside
  have digit := Nat.isDigit_of_mem_toDigits (by decide) (by decide) inside
  exact absurd digit (by decide)

theorem noNul_of_valid {name : String} (valid : validBucketName name = true) :
    '\x00' ∉ name.toList := by
  intro inside
  obtain ⟨front, back, split⟩ := List.append_of_mem inside
  refine validBucketName_noNul valid ?_
  have text : name = String.ofList front ++ "\x00" ++ String.ofList back := by
    rw [← String.toList_inj, split]
    simp
  rw [text, utf8_eq, String.toByteArray_append, String.toByteArray_append]
  simp only [ByteArray.data_append, Array.toList_append, List.mem_append]
  exact .inl (.inr (by decide))

def versionText (version : Option Core.Vk) : String :=
  match version with
  | some vk => hexEncode vk
  | none => "-"

theorem objKey_toList (address : Address) (size : Nat) :
    (objKey address size).toList = address.bucket.toList ++ '\x00' ::
      (address.key.toList ++ '\x00' :: ((versionText address.version).toList ++ '\x00' ::
        (toString size).toList)) := by
  cases held : address.version <;> simp [objKey, versionText, held]

theorem versionText_injective {left right : Option Core.Vk}
    (same : versionText left = versionText right) : left = right := by
  have apart (vk : Core.Vk) : hexEncode vk ≠ "-" := by
    intro dash
    have decoded := hexDecode_hexEncode vk
    rw [dash] at decoded
    cases decoded
  cases left with
  | none =>
    cases right with
    | none => rfl
    | some vk => exact absurd same.symm (apart vk)
  | some vk =>
    cases right with
    | none => exact absurd same (apart vk)
    | some vk' => exact congrArg some (hexEncode_injective same)

theorem noNul_versionText (version : Option Core.Vk) : '\x00' ∉ (versionText version).toList := by
  cases version with
  | none => decide
  | some vk => exact noNul_hexEncode vk

theorem append_cons_inj_left {left right tail tail' : List Char} {c : Char} (first : c ∉ left)
    (second : c ∉ right) (same : left ++ c :: tail = right ++ c :: tail') :
    left = right ∧ tail = tail' := by
  induction left generalizing right with
  | nil =>
    cases right with
    | nil => exact ⟨rfl, (List.cons.inj same).2⟩
    | cons d right => exact absurd ((List.cons.inj same).1 ▸ List.mem_cons_self) second
  | cons d left ih =>
    cases right with
    | nil => exact absurd ((List.cons.inj same).1 ▸ List.mem_cons_self) first
    | cons e right =>
      obtain ⟨rfl, later⟩ := List.cons.inj same
      obtain ⟨equal, tails⟩ := ih (fun inside => first (List.mem_cons_of_mem _ inside))
        (fun inside => second (List.mem_cons_of_mem _ inside)) later
      exact ⟨congrArg _ equal, tails⟩

theorem append_cons_inj_right {left right tail tail' : List Char} {c : Char} (first : c ∉ tail)
    (second : c ∉ tail') (same : left ++ c :: tail = right ++ c :: tail') :
    left = right ∧ tail = tail' := by
  have turned := congrArg List.reverse same
  simp only [List.reverse_append, List.reverse_cons, List.append_assoc, List.singleton_append] at turned
  obtain ⟨tails, fronts⟩ := append_cons_inj_left (by simpa using first) (by simpa using second) turned
  exact ⟨List.reverse_injective fronts, List.reverse_injective tails⟩

theorem objKey_injective {left right : Address} {size size' : Nat}
    (first : '\x00' ∉ left.bucket.toList) (second : '\x00' ∉ right.bucket.toList)
    (same : objKey left size = objKey right size') : left = right ∧ size = size' := by
  have texts := congrArg String.toList same
  rw [objKey_toList, objKey_toList] at texts
  obtain ⟨buckets, rest⟩ := append_cons_inj_left first second texts
  simp only [← List.cons_append, ← List.append_assoc] at rest
  obtain ⟨rest, sizes⟩ := append_cons_inj_right (noNul_toString size) (noNul_toString size') rest
  obtain ⟨keys, versions⟩ := append_cons_inj_right (noNul_versionText left.version)
    (noNul_versionText right.version) rest
  obtain ⟨bucket, key, version⟩ := left
  obtain ⟨bucket', key', version'⟩ := right
  cases String.toList_inj.mp buckets
  cases String.toList_inj.mp keys
  cases versionText_injective (String.toList_inj.mp versions)
  exact ⟨rfl, Nat.repr_injective (String.toList_inj.mp sizes)⟩

/-- What is stored, and the cache of the service in front of it. -/
structure Serving where
  catalog : Catalog
  cache : ObjectCache

inductive ServingStep where
  | change (change : Change)
  | get (req : GetRequest)

def Serving.step (config : CacheConfig) (s : Serving) : ServingStep → Serving
  | .change change => { s with catalog := s.catalog.apply change }
  | .get req => { s with cache := (opGetObject s.catalog config s.cache req).2 }

def engineBytes (catalog : Catalog) (req : GetRequest) : Option Bytes :=
  match admitGet catalog req with
  | .ok (_, _, .single start stop) =>
    (catalog.resolve none req.address).map fun v => slice v.content start (stop - start)
  | _ => none

def CacheCoherent (config : CacheConfig) (s : Serving) : Prop :=
  ∀ req v body, (opGetObject s.catalog config s.cache req).1 = .ok (v, .bytes body) →
    engineBytes s.catalog req = some body

/-- Requests for an address are answered from the cache, if it has an entry. -/
structure Cacheable (config : CacheConfig) (catalog : Catalog) (address : Address) (v : Version) :
    Prop where
  resolved : catalog.resolve none address = some v
  plain : v.record.sse = none
  eligible : config.eligible v.record.size = true
  restored : ∃ now, archiveNeedsRestore v.record = true → v.record.restoreValid now = true

def Spares (config : CacheConfig) (s : Serving) : ServingStep → Prop
  | .get _ => True
  | .change change => ∀ address v bytes, Cacheable config (s.catalog.apply change) address v →
      ¬Cacheable config s.catalog address v →
      s.cache.lookup (objKey address v.record.size) = some bytes → bytes = v.content

/-- The entries of the cache, which are within its limit and counted, are those of addresses. -/
structure Accounted (config : CacheConfig) (cache : ObjectCache) : Prop where
  linked : cache.Linked []
  within : cache.totalBytes ≤ config.maxBytes
  keyed : ∀ key bytes, cache.lookup key = some bytes → ∃ address : Address,
    '\x00' ∉ address.bucket.toList ∧ key = objKey address bytes.length

section Cache

variable {config : CacheConfig} {catalog : Catalog} {cache : ObjectCache} {address : Address}
  {v : Version} {bytes : Bytes} {req : GetRequest}

theorem accounted_new (config : CacheConfig) : Accounted config (ObjectCache.new config) where
  linked := ObjectCache.linked_new config
  within := Nat.zero_le _
  keyed := by
    intro key bytes found
    cases found

theorem noNul_of_resolve (resolved : catalog.resolve none address = some v) :
    '\x00' ∉ address.bucket.toList := by
  cases held : catalog.buckets.get? address.bucket with
  | none =>
    rw [Catalog.resolve, Catalog.resolveEntry, held] at resolved
    cases resolved
  | some bucket => exact noNul_of_valid (catalog.named _ _ held)

theorem Accounted.length (accounted : Accounted config cache) {size : Nat}
    (named : '\x00' ∉ address.bucket.toList) (found : cache.lookup (objKey address size) = some bytes) :
    bytes.length = size := by
  obtain ⟨other, plain, key⟩ := accounted.keyed _ _ found
  exact (objKey_injective named plain key).2.symm

theorem eligible_pos {size : Nat} (eligible : config.eligible size = true) : 0 < size := by
  simp only [CacheConfig.eligible, Bool.and_eq_true, decide_eq_true_eq] at eligible
  exact eligible.1.2

theorem readWhole_eq_some {size : Nat} (read : readWhole catalog req size = some bytes) :
    ∃ v, catalog.resolve none req.address = some v ∧ bytes = v.content.take size ∧
      bytes.length = size := by
  rw [readWhole] at read
  split at read
  · cases resolved : catalog.resolve none req.address with
    | none =>
      rw [resolved] at read
      cases read
    | some v =>
      rw [resolved] at read
      simp only [Option.bind_some] at read
      split at read
      · next sized =>
          cases read
          exact ⟨v, rfl, rfl, sized⟩
      · cases read
  · cases read

theorem cachedObject_spec (accounted : Accounted config cache)
    (resolved : catalog.resolve none req.address = some v) :
    Accounted config (cachedObject catalog config cache req v.record.size).2 ∧
      (∀ key bytes, (cachedObject catalog config cache req v.record.size).2.lookup key = some bytes →
        cache.lookup key = some bytes ∨
          (key = objKey req.address v.record.size ∧ bytes = v.content)) ∧
      ∀ full, (cachedObject catalog config cache req v.record.size).1 = some full →
        cache.lookup (objKey req.address v.record.size) = some full ∨ full = v.content := by
  obtain ⟨after, got, linked, total, same⟩ :=
    ObjectCache.get_spec accounted.linked (objKey req.address v.record.size)
  have kept : Accounted config after := by
    refine ⟨linked, total ▸ accounted.within, ?_⟩
    intro key bytes found
    exact accounted.keyed key bytes (same key ▸ found)
  rw [cachedObject, got]
  cases hit : cache.lookup (objKey req.address v.record.size) with
  | some bytes =>
    refine ⟨kept, ?_, ?_⟩
    · intro key found here
      exact .inl (same key ▸ here)
    · intro full equal
      exact .inl equal
  | none =>
    cases read : readWhole catalog req v.record.size with
    | none =>
      refine ⟨kept, ?_, ?_⟩
      · intro key found here
        exact .inl (same key ▸ here)
      · intro full none
        cases none
    | some bytes =>
      obtain ⟨w, again, content, sized⟩ := readWhole_eq_some read
      rw [resolved] at again
      cases again
      have whole : bytes = v.content := by
        rw [content, ← v.sized, List.take_length]
      have named := noNul_of_resolve resolved
      have absent (before : Bytes)
          (found : after.lookup (objKey req.address v.record.size) = some before) :
          before.length = bytes.length := by
        rw [same, hit] at found
        cases found
      obtain ⟨filled, inserted, linked', within, left⟩ :=
        ObjectCache.insert_spec config kept.linked kept.within bytes absent
      simp only [inserted, Option.getD_some]
      have lookups (key : String) (found : Bytes) (here : filled.lookup key = some found) :
          cache.lookup key = some found ∨
            (key = objKey req.address v.record.size ∧ found = v.content) := by
        obtain fresh | old := left key found here
        · exact .inr ⟨fresh.1, fresh.2.trans whole⟩
        · exact .inl (same key ▸ old)
      refine ⟨⟨linked', within, ?_⟩, lookups, ?_⟩
      · intro key found here
        obtain old | fresh := lookups key found here
        · exact accounted.keyed key found old
        · refine ⟨req.address, named, ?_⟩
          rw [fresh.1, fresh.2, v.sized]
      · intro full equal
        cases equal
        exact .inr whole

def wholeRequest (address : Address) (now : Int) : GetRequest where
  address := address
  headOnly := false
  now := now
  refuses := fun _ => false
  rangeParts := fun _ => .ok none
  readable := true

theorem admitGet_whole (cacheable : Cacheable config catalog address v) :
    ∃ bucket now, admitGet catalog (wholeRequest address now) =
      .ok (bucket, v, .single 0 v.record.size) := by
  obtain ⟨now, restored⟩ := cacheable.restored
  cases held : catalog.buckets.get? address.bucket with
  | none =>
    have resolved := cacheable.resolved
    rw [Catalog.resolve, Catalog.resolveEntry, held] at resolved
    cases resolved
  | some bucket =>
    exact ⟨bucket, now, (admitGet_eq_ok rfl).mpr ⟨held, cacheable.resolved, restored, rfl, rfl⟩⟩

theorem cachedBody_cache {start length : Nat} {out : Option Bytes} {after : ObjectCache}
    (given : cachedBody catalog config cache req v start length = (out, after)) :
    after = cache ∨ (v.record.sse = none ∧ config.eligible v.record.size = true ∧
      after = (cachedObject catalog config cache req v.record.size).2) := by
  rw [cachedBody] at given
  split at given
  · next asked =>
      refine .inr ⟨asked.1, asked.2.1, ?_⟩
      split at given
      · next object =>
          cases given
          rw [object]
      · next object =>
          rw [object]
          split at given <;> cases given <;> rfl
  · cases given
    exact .inl rfl

theorem opGetObject_cache (accounted : Accounted config cache) :
    Accounted config (opGetObject catalog config cache req).2 ∧
      ∀ key bytes, (opGetObject catalog config cache req).2.lookup key = some bytes →
        cache.lookup key = some bytes ∨ ∃ v, Cacheable config catalog req.address v ∧
          key = objKey req.address v.record.size ∧ bytes = v.content := by
  have unchanged : Accounted config cache ∧ ∀ key bytes, cache.lookup key = some bytes →
      cache.lookup key = some bytes ∨ ∃ v, Cacheable config catalog req.address v ∧
        key = objKey req.address v.record.size ∧ bytes = v.content :=
    ⟨accounted, fun _ _ => .inl⟩
  rw [opGetObject]
  cases admitted : admitGet catalog req with
  | error reason => exact unchanged
  | ok found =>
    obtain ⟨bucket, v, span⟩ := found
    cases span with
    | multi ranges => exact unchanged
    | single start stop =>
      simp only
      split
      · exact unchanged
      · next whole =>
          obtain ⟨-, resolved, restored, -, -⟩ :=
            (admitGet_eq_ok (Bool.not_eq_true _ ▸ whole)).mp admitted
          cases given : cachedBody catalog config cache req v start (stop - start) with
          | mk out after =>
            have kept : Accounted config after ∧ ∀ key bytes, after.lookup key = some bytes →
                cache.lookup key = some bytes ∨ ∃ v, Cacheable config catalog req.address v ∧
                  key = objKey req.address v.record.size ∧ bytes = v.content := by
              obtain same | ⟨plain, eligible, same⟩ := cachedBody_cache given
              · rw [same]
                exact unchanged
              · rw [same]
                obtain ⟨kept, lookups, -⟩ := cachedObject_spec accounted resolved
                refine ⟨kept, ?_⟩
                intro key bytes found
                obtain old | fresh := lookups key bytes found
                · exact .inl old
                · exact .inr ⟨v, ⟨resolved, plain, eligible, req.now, restored⟩, fresh⟩
            cases out with
            | none => exact kept
            | some body => exact kept

theorem coherent_iff (accounted : Accounted config cache) :
    CacheCoherent config ⟨catalog, cache⟩ ↔ ∀ address v bytes, Cacheable config catalog address v →
      cache.lookup (objKey address v.record.size) = some bytes → bytes = v.content := by
  constructor
  · intro coherent address v bytes cacheable found
    obtain ⟨bucket, now, admitted⟩ := admitGet_whole cacheable
    have size := accounted.length (noNul_of_resolve cacheable.resolved) found
    have positive := eligible_pos cacheable.eligible
    obtain ⟨after, got, -⟩ :=
      ObjectCache.get_spec accounted.linked (objKey address v.record.size)
    have object : cachedObject catalog config cache (wholeRequest address now) v.record.size =
        (some bytes, after) := by
      rw [cachedObject, show objKey (wholeRequest address now).address v.record.size =
        objKey address v.record.size from rfl, got, found]
    have filled : bytes ≠ [] := by
      intro empty
      rw [empty] at size
      exact absurd size.symm positive.ne'
    have answered : (opGetObject catalog config cache (wholeRequest address now)).1 =
        .ok (v, .bytes (slice bytes 0 (v.record.size - 0))) := by
      rw [opGetObject, admitted]
      simp only [show (wholeRequest address now).headOnly = false from rfl, cachedBody,
        if_pos (show v.record.sse = none ∧ config.eligible v.record.size = true ∧
          0 < v.record.size - 0 from ⟨cacheable.plain, cacheable.eligible, positive⟩), object,
        if_neg filled]
      rfl
    have right := coherent (wholeRequest address now) v _ answered
    have read : engineBytes catalog (wholeRequest address now) =
        some (slice v.content 0 (v.record.size - 0)) := by
      rw [engineBytes, admitted]
      simp only [show (wholeRequest address now).address = address from rfl, cacheable.resolved,
        Option.map_some]
    rw [read] at right
    have same := Option.some.inj right
    rw [slice, slice, List.drop_zero, List.drop_zero, Nat.sub_zero, ← v.sized, List.take_length,
      v.sized, ← size, List.take_length] at same
    exact same.symm
  · intro right req v body answered
    rw [opGetObject] at answered
    cases admitted : admitGet catalog req with
    | error reason =>
      rw [admitted] at answered
      cases answered
    | ok found =>
      obtain ⟨bucket, w, span⟩ := found
      rw [admitted] at answered
      cases span with
      | multi ranges =>
        simp only at answered
        split at answered <;> cases answered
      | single start stop =>
        simp only at answered
        split at answered
        · cases answered
        · next whole =>
            obtain ⟨-, resolved, restored, -, -⟩ :=
              (admitGet_eq_ok (Bool.not_eq_true _ ▸ whole)).mp admitted
            split at answered
            · next body' after given =>
                cases answered
                rw [cachedBody] at given
                split at given
                · next asked =>
                    split at given
                    · cases given
                    · next full after' object =>
                        split at given
                        · cases given
                        · cases given
                          obtain ⟨-, -, source⟩ := cachedObject_spec accounted resolved
                          have content : full = v.content := by
                            obtain held | read := source full (by rw [object])
                            · exact right req.address v full
                                ⟨resolved, asked.1, asked.2.1, req.now, restored⟩ held
                            · exact read
                          rw [engineBytes, admitted]
                          simp only [resolved, Option.map_some, content]
                · cases given
            · cases answered

theorem coherent_get (accounted : Accounted config cache)
    (coherent : CacheCoherent config ⟨catalog, cache⟩) (req : GetRequest) :
    CacheCoherent config ⟨catalog, (opGetObject catalog config cache req).2⟩ := by
  have left : Accounted config (opGetObject catalog config cache req).2 ∧ _ :=
    opGetObject_cache accounted
  obtain ⟨kept, lookups⟩ := left
  have right := (coherent_iff accounted).mp coherent
  refine (coherent_iff kept).mpr ?_
  intro address v bytes cacheable found
  obtain old | ⟨w, other, key, content⟩ := lookups _ _ found
  · exact right address v bytes cacheable old
  · obtain ⟨same, -⟩ := objKey_injective (noNul_of_resolve cacheable.resolved)
      (noNul_of_resolve other.resolved) key
    have resolved := cacheable.resolved
    rw [same, other.resolved] at resolved
    rw [content, Option.some.inj resolved]

end Cache

section Runs

variable {config : CacheConfig} {s : Serving}

theorem accounted_step (step : ServingStep) (accounted : Accounted config s.cache) :
    Accounted config (s.step config step).cache := by
  cases step with
  | change change => exact accounted
  | get req => exact (opGetObject_cache accounted).1

theorem coherent_step (step : ServingStep) (accounted : Accounted config s.cache)
    (coherent : CacheCoherent config s) : CacheCoherent config (s.step config step) ↔ Spares config s step := by
  cases step with
  | get req => exact iff_of_true (coherent_get accounted coherent req) trivial
  | change change =>
    have before := (coherent_iff accounted).mp coherent
    refine (coherent_iff accounted).trans ?_
    constructor
    · intro right address v bytes cacheable _ found
      exact right address v bytes cacheable found
    · intro spares address v bytes cacheable found
      by_cases already : Cacheable config s.catalog address v
      · exact before address v bytes already found
      · exact spares address v bytes cacheable already found

/-- In every run the bytes of the cache are counted and within its limit, and its answers are right
throughout exactly if every change spares what is cached. -/
theorem run_coherent_iff (config : CacheConfig) (catalog : Catalog) (steps : List ServingStep) :
    AlwaysHolds (Serving.step config)
        (fun s => s.cache.totalBytes = s.cache.cachedBytes ∧ s.cache.totalBytes ≤ config.maxBytes)
        ⟨catalog, ObjectCache.new config⟩ steps ∧
      (AlwaysHolds (Serving.step config) (CacheCoherent config) ⟨catalog, ObjectCache.new config⟩ steps ↔
        EveryStep (Serving.step config) (Spares config) ⟨catalog, ObjectCache.new config⟩ steps) := by
  have accounted : AlwaysHolds (Serving.step config) (fun s => Accounted config s.cache)
      ⟨catalog, ObjectCache.new config⟩ steps := by
    have keeps (s : Serving) (step : ServingStep) (accounted : Accounted config s.cache) (_ : True) :
        Accounted config (s.step config step).cache :=
      accounted_step step accounted
    exact alwaysHolds_of_keeps keeps (accounted_new config) fun _ _ _ _ => trivial
  have start : CacheCoherent config ⟨catalog, ObjectCache.new config⟩ := by
    refine (coherent_iff (accounted_new config)).mpr ?_
    intro address v bytes _ found
    cases found
  refine ⟨?_, ?_⟩
  · intro earlier later split
    have reached := accounted earlier later split
    exact ⟨reached.linked.counted, reached.within⟩
  · have implied (s : Serving) (both : Accounted config s.cache ∧ CacheCoherent config s) :
        CacheCoherent config s := both.2
    refine alwaysHolds_iff_of_invariant implied ?_ ?_ ⟨accounted_new config, start⟩
    · intro s step both
      exact coherent_step step both.1 both.2
    · intro s step both spares
      exact ⟨accounted_step step both.1, (coherent_step step both.1 both.2).mpr spares⟩

end Runs

def smallCache : CacheConfig :=
  ⟨true, 65536, 4096⟩

theorem oneByte_length (b : UInt8) : [b].length = 1 :=
  rfl

def wroteByte (b : UInt8) : ServingStep :=
  .change (.write "photos" "cat" ⟨0, 0, []⟩ none
    ⟨{ size := 1, mtime := 0, extents := [], inline := none, parts := [], versionId := none,
       isDeleteMarker := false, sse := none, compressed := none, storageClass := none,
       restoreState := none }, [b], oneByte_length b⟩)

def readCat : GetRequest :=
  wholeRequest ⟨"photos", "cat", none⟩ 0

def overwritten : List ServingStep :=
  [.change (.createBucket "photos"), wroteByte 1, .get readCat, wroteByte 2]

def overwrittenState : Serving :=
  overwritten.foldl (Serving.step smallCache) ⟨.empty, ObjectCache.new smallCache⟩

theorem overwritten_not_coherent :
    ¬∀ (config : CacheConfig) (catalog : Catalog) (steps : List ServingStep),
      AlwaysHolds (Serving.step config) (CacheCoherent config) ⟨catalog, ObjectCache.new config⟩ steps := by
  intro always
  have last : CacheCoherent smallCache overwrittenState :=
    always smallCache .empty overwritten overwritten [] rfl
  have stale : (opGetObject overwrittenState.catalog smallCache overwrittenState.cache
      readCat).1.toOption.map Prod.snd = some (.bytes [1]) := by decide +kernel
  obtain ⟨given, answered, body⟩ := Option.map_eq_some_iff.mp stale
  obtain ⟨v, answer⟩ := given
  cases body
  have answered : (opGetObject overwrittenState.catalog smallCache overwrittenState.cache readCat).1 =
      .ok (v, .bytes [1]) := by
    cases outcome : (opGetObject overwrittenState.catalog smallCache overwrittenState.cache readCat).1 with
    | error reason =>
      rw [outcome] at answered
      cases answered
    | ok given =>
      rw [outcome] at answered
      cases answered
      rfl
  exact absurd (last readCat v [1] answered) (by decide +kernel)

end FastS3.S3
