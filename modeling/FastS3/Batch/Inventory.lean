import FastS3.Batch.Manifest

namespace FastS3.Batch

open FastS3.Core Data S3

/-! The inventory of a bucket, and what a batch job reads of it.

An inventory is a quoted text of twenty columns under a header.  The reader of manifests knows headers
of the three columns it needs only; it takes the header for an item, and its third column for a version.
-/

def padded (width : Nat) (n : Int) : List Char :=
  let digits := Nat.toDigits 10 n.natAbs
  if n < 0 then '-' :: (List.replicate (width - 1 - digits.length) '0' ++ digits)
  else List.replicate (width - digits.length) '0' ++ digits

def civilFromDays (days : Int) : Int × Int × Int :=
  let z := days + 719468
  let era := Int.tdiv (if z ≥ 0 then z else z - 146096) 146097
  let doe := z - era * 146097
  let yoe := (doe - doe.tdiv 1460 + doe.tdiv 36524 - doe.tdiv 146096).tdiv 365
  let y := yoe + era * 400
  let doy := doe - (365 * yoe + yoe.tdiv 4 - yoe.tdiv 100)
  let mp := (5 * doy + 2).tdiv 153
  let d := doy - (153 * mp + 2).tdiv 5 + 1
  let mth := if mp < 10 then mp + 3 else mp - 9
  (if mth ≤ 2 then y + 1 else y, mth, d)

def dateText (ts : Int) : List Char :=
  let date := civilFromDays (ts / 86400)
  padded 4 date.1 ++ '-' :: padded 2 date.2.1 ++ '-' :: padded 2 date.2.2

def inventoryTs (nowSecs : Int) : List Char :=
  let rem := nowSecs % 86400
  dateText nowSecs ++ 'T' :: padded 2 (rem / 3600) ++ '-' :: padded 2 (rem % 3600 / 60) ++ ['Z']

def tsToIsoParts (ts : Int) : List Char :=
  let rem := ts % 86400
  dateText ts ++ 'T' :: padded 2 (rem / 3600) ++ ':' :: padded 2 (rem % 3600 / 60) ++
    ':' :: padded 2 (rem % 60)

def inventoryTsRfc3339 (nowSecs : Int) : List Char :=
  tsToIsoParts nowSecs ++ ['Z']

inductive InventoryObjectVersions where
  | all
  | current
deriving Repr, DecidableEq

structure InventoryRule where
  id : String
  isEnabled : Bool
  filterPrefix : Option String
  includedVersions : InventoryObjectVersions
  destinationBucket : String
  destinationPrefix : Option String
deriving Repr, DecidableEq

def InventoryRule.destPrefix (rule : InventoryRule) : String :=
  rule.destinationPrefix.getD ""

/-- What a row shows of a record; the checksum comes as the name of its algorithm. -/
structure ListedRecord where
  size : Nat
  mtime : Int
  etagHex : String
  parts : List Nat
  isDeleteMarker : Bool
  checksum : Option String
deriving Repr, DecidableEq

structure InventoryRow where
  key : String
  record : ListedRecord
  vk : Option Vk
deriving Repr, DecidableEq

def inventoryColumns : List String :=
  ["Bucket", "Key", "Size", "LastModifiedDate", "ETag", "StorageClass", "IsMultipartUploaded",
    "ReplicationStatus", "EncryptionStatus", "ObjectLockRetentionMode", "ObjectLockRetainUntilDate",
    "ObjectLockLegalHoldStatus", "IntelligentTieringAccessTier", "VersionId", "IsLatest", "DeleteMarker",
    "ChecksumAlgorithm", "ObjectAccessControlList", "ObjectOwner", "UserMetadata"]

def joined (cols : List (List Char)) : List Char :=
  [','].intercalate cols

def inventoryCsvHeader : List Char :=
  joined (inventoryColumns.map String.toList)

def csvEscape (s : List Char) : List Char :=
  if s.any fun c => c = ',' || c = '"' || c = '\n' || c = '\r' then
    '"' :: Text.replace ['"'] ['"', '"'] s ++ ['"']
  else s

def versionIdDisplay (vk : Option Vk) : String :=
  match vk with
  | some vk => if vk ≠ vkNull then hexEncode vk else "null"
  | none => "null"

def rowVersionId (vk : Option Vk) (included : InventoryObjectVersions) : String :=
  match included with
  | .all =>
    match vk with
    | some v => if v = vkNull then "null" else versionIdDisplay (some v)
    | none => ""
  | .current => ""

def flag (b : Bool) : String :=
  if b then "true" else "false"

def csvRow (bucket : String) (row : InventoryRow) (included : InventoryObjectVersions) : List Char :=
  let m := row.record
  let isLatest :=
    match included with
    | .all => flag !m.isDeleteMarker
    | .current => ""
  joined [csvEscape bucket.toList, csvEscape row.key.toList, (toString m.size).toList,
    tsToIsoParts m.mtime, csvEscape m.etagHex.toList, "STANDARD".toList,
    (flag !m.parts.isEmpty).toList, [], [], [], [], [], [],
    csvEscape (rowVersionId row.vk included).toList, isLatest.toList, (flag m.isDeleteMarker).toList,
    (m.checksum.getD "").toList, [], [], []]

/-- What an inventory is made of: the snapshot of all versions, and the listing of a bucket. -/
structure InventorySource where
  snapshotAllObjects : List (String × InventoryRow)
  listObjects : String → String → List (String × ListedRecord)

def inventoryRows (source : InventorySource) (bucket : String) (rule : InventoryRule) :
    List InventoryRow :=
  let named := rule.filterPrefix.getD ""
  match rule.includedVersions with
  | .all =>
    (source.snapshotAllObjects.filter fun row =>
      row.1 = bucket && named.toList.isPrefixOf row.2.key.toList).map Prod.snd
  | .current => (source.listObjects bucket named).map fun row => ⟨row.1, row.2, none⟩

def inventoryCsv (bucket : String) (included : InventoryObjectVersions) (rows : List InventoryRow) :
    List Char :=
  inventoryCsvHeader ++ '\n' :: rows.flatMap fun row => csvRow bucket row included ++ ['\n']

def escapeJson (s : List Char) : List Char :=
  Text.replace ['"'] ['\\', '"'] (Text.replace ['\\'] ['\\', '\\'] s)

def jsonField (name : String) (value : List Char) : List Char :=
  '"' :: name.toList ++ '"' :: ':' :: value

def jsonText (value : List Char) : List Char :=
  '"' :: value ++ ['"']

def manifestJson (bucket destinationBucket : String) (nowSecs : Int) (dataKey csv : List Char)
    (md5Hex : List Char → List Char) : List Char :=
  let file := joined [jsonField "key" (jsonText (escapeJson dataKey)),
    jsonField "size" (toString (csv.map Char.utf8Size).sum).toList, jsonField "MD5checksum" (jsonText (md5Hex csv))]
  '\x7b' :: joined [jsonField "sourceBucket" (jsonText (escapeJson bucket.toList)),
    jsonField "destinationBucket" (jsonText (escapeJson destinationBucket.toList)),
    jsonField "version" (jsonText "2016-11-30".toList),
    jsonField "creationTimestamp" (jsonText (inventoryTsRfc3339 nowSecs)),
    jsonField "fileFormat" (jsonText "CSV".toList),
    jsonField "fileSchema" (jsonText (escapeJson inventoryCsvHeader)),
    jsonField "files" ('[' :: '\x7b' :: file ++ ['\x7d', ']'])] ++ ['\x7d']

structure Inventory where
  dataKey : List Char
  csv : List Char
  manifestKey : List Char
  manifest : List Char
deriving Repr, DecidableEq

def generateBucket (source : InventorySource) (md5Hex : List Char → List Char) (bucket : String)
    (rule : InventoryRule) (nowSecs : Nat) : Inventory :=
  let rows := inventoryRows source bucket rule
  let ts := inventoryTs nowSecs
  let base := rule.destPrefix.toList ++ bucket.toList ++ '/' :: "inventory".toList ++ '/' :: ts
  let dataKey := base ++ "/data/inventory-".toList ++ ts ++ ".csv".toList
  let csv := inventoryCsv bucket rule.includedVersions rows
  { dataKey := dataKey
    csv := csv
    manifestKey := base ++ "/manifest.json".toList
    manifest := manifestJson bucket rule.destinationBucket nowSecs dataKey csv md5Hex }

def rowVersion (row : InventoryRow) (included : InventoryObjectVersions) : Option Vk :=
  match included with
  | .all => row.vk
  | .current => none

/-- A batch job reads the rows of an inventory as its items, and finds the data file by the manifest. -/
def ReadsBack (fromStr : List Char → Except String Json) (bucket : String)
    (included : InventoryObjectVersions) (rows : List InventoryRow) (files : Inventory) : Prop :=
  parseManifestCsv files.csv = .ok (rows.map fun row => ⟨bucket, row.key, rowVersion row included⟩) ∧
    inventoryFileKeys fromStr files.manifest = .ok [String.ofList files.dataKey]

theorem header_oneLine : '\n' ∉ inventoryCsvHeader := by
  decide +kernel

theorem parseLine_header :
    parseLine none 0 (withoutReturn inventoryCsvHeader) = lineError 0 "versionId must be hex" := by
  decide +kernel

theorem parseManifestCsv_inventory (bucket : String) (included : InventoryObjectVersions)
    (rows : List InventoryRow) :
    parseManifestCsv (inventoryCsv bucket included rows) = lineError 0 "versionId must be hex" := by
  rw [parseManifestCsv, inventoryCsv, lines_cons header_oneLine, parseLines, parseLine_header]
  rfl

/-- No batch job runs over an inventory. -/
theorem inventory_not_readsBack (fromStr : List Char → Except String Json)
    (md5Hex : List Char → List Char) (source : InventorySource) (bucket : String)
    (rule : InventoryRule) (nowSecs : Nat) :
    ¬ReadsBack fromStr bucket rule.includedVersions (inventoryRows source bucket rule)
      (generateBucket source md5Hex bucket rule nowSecs) := by
  intro readsBack
  have read := readsBack.1
  rw [generateBucket, parseManifestCsv_inventory] at read
  cases read

/-- The inventory of a bucket with one object. -/
theorem inventory_one_object :
    ∃ (source : InventorySource) (bucket : String) (rule : InventoryRule) (nowSecs : Nat),
      inventoryRows source bucket rule = [⟨"k", ⟨1, 0, "00", [], false, none⟩, none⟩] ∧
        ∀ fromStr md5Hex, ¬ReadsBack fromStr bucket rule.includedVersions
          (inventoryRows source bucket rule) (generateBucket source md5Hex bucket rule nowSecs) := by
  refine ⟨⟨[("b", ⟨"k", ⟨1, 0, "00", [], false, none⟩, none⟩)], fun _ _ => []⟩, "b",
    ⟨"all", true, none, .all, "d", none⟩, 0, by decide, ?_⟩
  intro fromStr md5Hex readsBack
  have read := readsBack.1
  rw [generateBucket, parseManifestCsv_inventory] at read
  cases read

end FastS3.Batch
