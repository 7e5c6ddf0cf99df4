import FastS3.Meta.Alike
import FastS3.Meta.Promote

namespace FastS3.Meta

open FastS3.Core Data

/-! The point of a snapshot, and the new downstream that starts from one. -/

/-- The commit sequence of the exporter is the number of the point behind the base. -/
structure ReplExportPoint where
  point : Gtid
  rawSeq : Nat
  ebase : Nat
  gtidSet : GtidSet
  aligned : rawSeq = ebase + point.seq

def maxPerEpoch (table : BTreeMap Nat Nat) (g : Gtid) : BTreeMap Nat Nat :=
  table.alter g.epoch fun seq => max (seq.getD 0) g.seq

namespace ReplNode

def watermark (node : ReplNode) : Gtid :=
  ⟨node.epoch, node.seq - node.ebase⟩

/-- The executed set with the numbers that the binlog covers, and on a primary those up to the
watermark. -/
def exportSet (node : ReplNode) (binlog : List Gtid) : GtidSet :=
  let covered := binlog.foldl maxPerEpoch BTreeMap.empty
  let covered :=
    if node.role ≠ .standby ∧ 1 ≤ node.watermark.seq then maxPerEpoch covered node.watermark
    else covered
  covered.entries.foldl
    (fun set entry => if 1 ≤ entry.2 then (set.insertRange entry.1 1 entry.2).getD set else set)
    ((node.store.rows .replExecuted).getD GtidSet.new)

/-- The point that `export_thread` reads from its snapshot, whose binlog holds these keys. -/
def exportPoint (node : ReplNode) (binlog : List Gtid) : Except Error ReplExportPoint :=
  let rawSeq := node.seq
  let ebase := node.ebase
  if based : ebase ≤ rawSeq then
    .ok {
      point := node.watermark
      rawSeq := rawSeq
      ebase := ebase
      gtidSet := node.exportSet binlog
      aligned := (Nat.add_sub_cancel' based).symm }
  else .error (.corrupt s!"s:repl_ebase {ebase} > s:seq {rawSeq}")

end ReplNode

/-- The transaction of `finalize_repl_import`. -/
def finalizeTx (point : Gtid) (executed : GtidSet) (rawSeq ebase : Nat) : MetaTx Unit := do
  tinsert .replCursor (some point)
  tinsert .replExecuted (some executed)
  let localEpoch := (← tget .replEpoch).getD 0
  tinsert .replEpoch (some (max localEpoch point.epoch))
  let curSeq := (← tget .seq).getD 0
  tinsert .seq (some (max curSeq rawSeq))
  tinsert .replEbase (some ebase)

/-- A page as the worker imports it, with the allocations for the data that it fetched. -/
structure ImportPage where
  entries : List ImportEntry
  alloc : Option AllocDraft

namespace MetaStore

def finalizeReplImport (store : MetaStore) (fate : WriteFate) (point : Gtid) (executed : GtidSet)
    (rawSeq ebase : Nat) : Except Error Unit × MetaStore :=
  match finalizeTx point executed rawSeq ebase store.rows with
  | .error e => (.error e, store)
  | .ok (_, rows) => fate.settle () store { store with rows := rows }

def importPages (store : MetaStore) (rawSeq : Nat) (pages : List ImportPage) : MetaStore :=
  pages.foldl (fun store page => (store.importReplBatch (.kept true) page.entries page.alloc rawSeq).2)
    store

/-- `bootstrap` with every write kept: the pages of a snapshot, and its point. -/
def bootstrap (store : MetaStore) (pages : List ImportPage) (exported : ReplExportPoint) : MetaStore :=
  ((store.importPages exported.rawSeq pages).finalizeReplImport .kept exported.point exported.gtidSet
    exported.rawSeq exported.ebase).2

end MetaStore

def importSlot : ImportEntry → Key × String
  | .lifecycleRule bucket id _ => (.lifecycleRules bucket, id)
  | .notificationRule bucket id _ => (.notificationRules bucket, id)
  | .inventoryRule bucket id _ => (.inventoryRules bucket, id)
  | .accessKey accessKey _ => (.accessKeys, accessKey)
  | .iamUser tenantId name _ => (.iamUsers tenantId, name)
  | .iamGroup tenantId name _ => (.iamGroups tenantId, name)
  | .iamPolicy tenantId name _ => (.iamPolicies tenantId, name)
  | .iamRole tenantId name _ => (.iamRoles tenantId, name)
  | entry => (importKey entry, "")

def unplacedEntry : ImportEntry → ImportEntry
  | .object bucket key vk value => .object bucket key vk value.unplaced
  | .part uploadId partNo value => .part uploadId partNo (unplacedPart value)
  | entry => entry

def single (id : String) (entry : Option ImportEntry) : Option ImportEntry :=
  if id = "" then entry else none

def entryAt (rows : Store) (slot : Key × String) : Option ImportEntry :=
  match slot.1 with
  | .bucket name => single slot.2 ((rows (.bucket name)).map (.bucket name))
  | .location name => single slot.2 ((rows (.location name)).map (.location name))
  | .conf conf bucket => single slot.2 ((rows (.conf conf bucket)).map (.conf conf bucket))
  | .lifecycleRules bucket =>
    ((rows (.lifecycleRules bucket)).get? slot.2).map (.lifecycleRule bucket slot.2)
  | .notificationRules bucket =>
    ((rows (.notificationRules bucket)).get? slot.2).map (.notificationRule bucket slot.2)
  | .inventoryRules bucket =>
    ((rows (.inventoryRules bucket)).get? slot.2).map (.inventoryRule bucket slot.2)
  | .object bucket key vk =>
    single slot.2 ((rows (.object bucket key vk)).map fun m => .object bucket key vk m.unplaced)
  | .session uploadId => single slot.2 ((rows (.session uploadId)).map (.session uploadId))
  | .sessionIndex bucket uploadId =>
    single slot.2 ((rows (.sessionIndex bucket uploadId)).map fun _ => .sessionIndex bucket uploadId)
  | .part uploadId partNo =>
    single slot.2 ((rows (.part uploadId partNo)).map fun value =>
      .part uploadId partNo (unplacedPart value))
  | .accessKeys => ((rows .accessKeys).get? slot.2).map (.accessKey slot.2)
  | .tenant tenantId => single slot.2 ((rows (.tenant tenantId)).map (.tenant tenantId))
  | .iamUsers tenantId => ((rows (.iamUsers tenantId)).get? slot.2).map (.iamUser tenantId slot.2)
  | .iamGroups tenantId => ((rows (.iamGroups tenantId)).get? slot.2).map (.iamGroup tenantId slot.2)
  | .iamPolicies tenantId =>
    ((rows (.iamPolicies tenantId)).get? slot.2).map (.iamPolicy tenantId slot.2)
  | .iamRoles tenantId => ((rows (.iamRoles tenantId)).get? slot.2).map (.iamRole tenantId slot.2)
  | .sseKekSeed => single slot.2 ((rows .sseKekSeed).map .sseKekSeed)
  | .sseKekGen => single slot.2 ((rows .sseKekGen).map .sseKekGen)
  | _ => none

/-- The entries are those of the snapshot, up to the places of data. -/
structure Exports (rows : Store) (entries : List ImportEntry) : Prop where
  sound : ∀ entry ∈ entries, entryAt rows (importSlot entry) = some (unplacedEntry entry)
  complete : ∀ slot, (entryAt rows slot).isSome → ∃ entry ∈ entries, importSlot entry = slot

theorem entryAt_congr {left right : Store} {slot : Key × String} (same : left slot.1 = right slot.1) :
    entryAt left slot = entryAt right slot := by
  obtain ⟨key, id⟩ := slot
  cases key <;> simp only [entryAt] at same ⊢ <;> rw [same]

theorem importEntry_entryAt {entry : ImportEntry} {before after : Store}
    (run : importEntry entry before = .ok ((), after)) (slot : Key × String) :
    entryAt after slot =
      if slot = importSlot entry then some (unplacedEntry entry) else entryAt before slot := by
  obtain ⟨key, id⟩ := slot
  by_cases written : key = importKey entry
  · subst written
    cases entry with
    | bucket | location | conf | object | session | sessionIndex | part | tenant | sseKekSeed
    | sseKekGen =>
      cases tinsert_eq_ok.mp run
      by_cases plain : id = ""
      · simp [entryAt, importKey, importSlot, single, plain, unplacedEntry]
      · simp [entryAt, importKey, importSlot, single, plain]
    | lifecycleRule | notificationRule | inventoryRule | accessKey | iamUser | iamGroup | iamPolicy
    | iamRole =>
      have rest := tget_bind_ok.mp run
      cases tinsert_eq_ok.mp rest
      simp only [entryAt, importKey, importSlot, unplacedEntry, Function.update_self,
        BTreeMap.insert, BTreeMap.get?_alter, Prod.mk.injEq, true_and]
      split
      · next same => simp [same]
      · rfl
  · rw [if_neg, entryAt_congr ((importEntry_within entry).frame run key written)]
    intro same
    apply written
    have keyed : (importSlot entry).1 = importKey entry := by
      cases entry <;> rfl
    rw [← keyed, ← same]

theorem alike_of_entryAt {left right : Store}
    (same : ∀ slot, entryAt left slot = entryAt right slot) : Alike left right := by
  intro key exported
  have entries := fun id => same (key, id)
  cases key with
  | bucket | location | conf | session | tenant | sseKekSeed | sseKekGen =>
    have equal := entries ""
    simp only [entryAt, single, if_true] at equal
    apply Option.map_injective _ equal
    intro first second constructed
    cases constructed
    rfl
  | sessionIndex bucket uploadId =>
    have equal := entries ""
    simp only [entryAt, single, if_true] at equal
    apply Option.map_injective _ equal
    intro _ _ _
    rfl
  | object bucket name vk =>
    have equal := entries ""
    simp only [entryAt, single, if_true] at equal
    have injective : Function.Injective (ImportEntry.object bucket name vk) := by
      intro first second constructed
      cases constructed
      rfl
    apply Option.map_injective injective
    show Option.map _ (Option.map ObjectMeta.unplaced _) = Option.map _ (Option.map _ _)
    rw [Option.map_map, Option.map_map]
    exact equal
  | part uploadId partNo =>
    have equal := entries ""
    simp only [entryAt, single, if_true] at equal
    have injective : Function.Injective (ImportEntry.part uploadId partNo) := by
      intro first second constructed
      cases constructed
      rfl
    apply Option.map_injective injective
    show Option.map _ (Option.map unplacedPart _) = Option.map _ (Option.map _ _)
    rw [Option.map_map, Option.map_map]
    exact equal
  | lifecycleRules | notificationRules | inventoryRules | accessKeys | iamUsers | iamGroups
  | iamPolicies | iamRoles =>
    apply BTreeMap.ext_get?
    intro id
    have equal := entries id
    simp only [entryAt] at equal
    apply Option.map_injective _ equal
    intro first second constructed
    cases constructed
    rfl
  | _ => cases exported

def Completes (rows : Store) (entries : List ImportEntry) (imported : Store) : Prop :=
  ∀ slot, entryAt imported slot = entryAt rows slot ∨ ∃ entry ∈ entries, importSlot entry = slot

section Import

variable {rows before after : Store} {entries : List ImportEntry}

def Blank (there : Store) (entries : List ImportEntry) : Prop :=
  ∀ slot, (entryAt there slot).isSome → ∃ entry ∈ entries, importSlot entry = slot

theorem Exports.completes (exports : Exports rows entries) (blank : Blank before entries) :
    Completes rows entries before := by
  intro slot
  by_cases listed : ∃ entry ∈ entries, importSlot entry = slot
  · exact .inr listed
  · have absent : ∀ value : Option ImportEntry,
        (value.isSome → ∃ entry ∈ entries, importSlot entry = slot) → value = none := by
      intro value some
      cases value with
      | none => rfl
      | some entry => exact absurd (some rfl) listed
    left
    rw [absent _ (blank slot), absent _ (exports.complete slot)]

theorem importEntries_completes {rest : List ImportEntry}
    (sound : ∀ entry ∈ entries, entryAt rows (importSlot entry) = some (unplacedEntry entry))
    (completes : Completes rows (entries ++ rest) before)
    (run : entries.forM importEntry before = .ok ((), after)) : Completes rows rest after := by
  induction entries generalizing before with
  | nil =>
    cases Tx.pure_eq_ok.mp run
    exact completes
  | cons entry later ih =>
    obtain ⟨_, middle, ran, remaining⟩ := Tx.bind_eq_ok.mp run
    apply ih (fun other member => sound other (List.mem_cons_of_mem _ member)) _ remaining
    intro slot
    rw [importEntry_entryAt ran slot]
    split
    · next here =>
        left
        rw [here, sound entry List.mem_cons_self]
    · next other =>
        rcases completes slot with same | ⟨found, member, named⟩
        · exact .inl same
        · rcases List.mem_cons.mp member with rfl | behind
          · exact absurd named.symm other
          · exact .inr ⟨found, behind, named⟩

theorem importEntry_succeeds (entry : ImportEntry) (before : Store) :
    ∃ after, importEntry entry before = .ok ((), after) := by
  cases entry <;> exact ⟨_, rfl⟩

theorem mergeAlloc_succeeds (alloc : Option AllocDraft) (seq : Nat) (before : Store) :
    ∃ after, mergeAlloc alloc seq before = .ok ((), after) := by
  cases alloc with
  | none => exact ⟨before, rfl⟩
  | some draft =>
    dsimp only [mergeAlloc]
    split
    · exact ⟨before, rfl⟩
    · exact ⟨_, rfl⟩

theorem importTx_succeeds (entries : List ImportEntry) (alloc : Option AllocDraft) (seq : Nat)
    (before : Store) :
    ∃ middle after, entries.forM importEntry before = .ok ((), middle) ∧
      importTx entries alloc seq before = .ok ((), after) ∧
      ∀ key, key ≠ .alloc seq → key ≠ .txn seq → after key = middle key := by
  obtain ⟨middle, ran⟩ := Tx.forM_succeeds importEntry_succeeds before
  obtain ⟨after, merged⟩ := mergeAlloc_succeeds alloc seq middle
  refine ⟨middle, after, ran, Tx.bind_eq_ok.mpr ⟨(), middle, ran, merged⟩, ?_⟩
  intro key notAlloc notTxn
  apply (mergeAlloc_within alloc seq).frame merged
  rintro (same | same)
  · exact notAlloc same
  · exact notTxn same

theorem importEntries_progress (run : entries.forM importEntry before = .ok ((), after)) {key : Key}
    (progress : key.progress = true) : after key = before key := by
  apply Tx.forM_keeps (P := fun rows => rows key = before key) _ run rfl
  intro entry _ start middle ran held
  rw [(importEntry_within entry).frame ran key, held]
  intro same
  rw [same] at progress
  cases entry <;> cases progress

end Import

namespace MetaStore

variable {store : MetaStore} {rawSeq : Nat} {rows : Store}

theorem importReplBatch_kept (store : MetaStore) (page : ImportPage) (rawSeq : Nat) :
    ∃ middle after, page.entries.forM importEntry store.rows = .ok ((), middle) ∧
      (store.importReplBatch (.kept true) page.entries page.alloc rawSeq).2 =
        { store with rows := after } ∧
      ∀ key, key ≠ .alloc rawSeq → key ≠ .txn rawSeq → after key = middle key := by
  obtain ⟨middle, after, ran, imported, beside⟩ :=
    importTx_succeeds page.entries page.alloc rawSeq store.rows
  refine ⟨middle, after, ran, ?_, beside⟩
  simp only [importReplBatch, imported]

theorem importPages_entryAt {pages : List ImportPage}
    (sound : ∀ entry ∈ pages.flatMap ImportPage.entries,
      entryAt rows (importSlot entry) = some (unplacedEntry entry))
    (completes : Completes rows (pages.flatMap ImportPage.entries) store.rows) (slot : Key × String) :
    entryAt (store.importPages rawSeq pages).rows slot = entryAt rows slot := by
  induction pages generalizing store with
  | nil =>
    rcases completes slot with same | ⟨_, member, _⟩
    · exact same
    · cases member
  | cons page rest ih =>
    obtain ⟨middle, after, ran, landed, beside⟩ := importReplBatch_kept store page rawSeq
    rw [List.flatMap_cons] at sound completes
    have partly : Completes rows (rest.flatMap ImportPage.entries) middle :=
      importEntries_completes (fun entry member => sound entry (List.mem_append_left _ member))
        completes ran
    rw [importPages, List.foldl_cons, landed]
    apply ih fun entry member => sound entry (List.mem_append_right _ member)
    intro other
    by_cases allocated : other.1 = .alloc rawSeq ∨ other.1 = .txn rawSeq
    · left
      rcases allocated with same | same
      · simp only [entryAt, same]
      · simp only [entryAt, same]
    · rw [not_or] at allocated
      rw [entryAt_congr (beside other.1 allocated.1 allocated.2)]
      exact partly other

theorem importPages_progress (store : MetaStore) (rawSeq : Nat) (pages : List ImportPage) {key : Key}
    (progress : key.progress = true) : (store.importPages rawSeq pages).rows key = store.rows key := by
  induction pages generalizing store with
  | nil => rfl
  | cons page rest ih =>
    obtain ⟨middle, after, ran, landed, beside⟩ := importReplBatch_kept store page rawSeq
    have kept : after key = middle key := by
      apply beside
      · rintro rfl
        cases progress
      · rintro rfl
        cases progress
    rw [importPages, List.foldl_cons, landed]
    exact (ih _).trans (kept.trans (importEntries_progress ran progress))

theorem bootstrap_numbers (store : MetaStore) (pages : List ImportPage) (exported : ReplExportPoint) :
    (store.bootstrap pages exported).rows .replCursor = some exported.point ∧
      (store.bootstrap pages exported).rows .replEpoch =
        some (max ((store.rows .replEpoch).getD 0) exported.point.epoch) ∧
      (store.bootstrap pages exported).rows .seq =
        some (max ((store.rows .seq).getD 0) exported.rawSeq) ∧
      (store.bootstrap pages exported).rows .replEbase = some exported.ebase := by
  rw [← importPages_progress store exported.rawSeq pages (by rfl : Key.progress .replEpoch = true),
    ← importPages_progress store exported.rawSeq pages (by rfl : Key.progress .seq = true)]
  exact ⟨rfl, rfl, rfl, rfl⟩

theorem bootstrap_frame (store : MetaStore) (pages : List ImportPage) (exported : ReplExportPoint)
    {key : Key} (plain : key.progress = false) :
    (store.bootstrap pages exported).rows key = (store.importPages exported.rawSeq pages).rows key := by
  have other : ∀ row : Key, row.progress = true → key ≠ row := by
    intro row progress same
    rw [same, progress] at plain
    cases plain
  show Function.update (Function.update (Function.update (Function.update (Function.update _
    .replCursor _) .replExecuted _) .replEpoch _) .seq _) .replEbase _ key = _
  rw [Function.update_of_ne (other _ rfl), Function.update_of_ne (other _ rfl),
    Function.update_of_ne (other _ rfl), Function.update_of_ne (other _ rfl),
    Function.update_of_ne (other _ rfl)]

theorem bootstrap_alike {pages : List ImportPage}
    (exports : Exports rows (pages.flatMap ImportPage.entries))
    (blank : Blank store.rows (pages.flatMap ImportPage.entries)) (exported : ReplExportPoint) : Alike rows (store.bootstrap pages exported).rows := by
  apply alike_of_entryAt
  intro slot
  have imported : entryAt (store.importPages exported.rawSeq pages).rows slot = entryAt rows slot :=
    importPages_entryAt exports.sound (exports.completes blank) slot
  rw [← imported]
  cases progress : slot.1.progress with
  | false => exact (entryAt_congr (bootstrap_frame store pages exported progress)).symm
  | true =>
    obtain ⟨key, id⟩ := slot
    cases key <;> rfl

end MetaStore

end FastS3.Meta
