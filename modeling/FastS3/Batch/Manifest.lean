import FastS3.S3.Router

namespace FastS3.Batch

open FastS3.Core Data S3

/-! The manifest of a batch job and its report.

A manifest is a comma separated text without quotes, one line for an item, or the `manifest.json` of an
inventory, which names such texts.
-/

structure BatchItem where
  bucket : String
  key : String
  vk : Option Vk
deriving Repr, DecidableEq

def withoutReturn (line : List Char) : List Char :=
  (Text.beforeLast '\r' line).getD line

def lines (text : List Char) : List (List Char) :=
  let pieces := text.splitOn '\n'
  let last := pieces.getLastD []
  pieces.dropLast.map withoutReturn ++ if last = [] then [] else [last]

theorem lines_cons {line : List Char} (inside : '\n' ∉ line) (rest : List Char) :
    lines (line ++ '\n' :: rest) = withoutReturn line :: lines rest := by
  have pieces : (line ++ '\n' :: rest).splitOn '\n' = line :: rest.splitOn '\n' :=
    List.splitOn_append_cons_self_of_not_mem inside rest
  have some : rest.splitOn '\n' ≠ [] := List.splitOn_ne_nil '\n' rest
  unfold lines
  dsimp only
  rw [pieces, List.dropLast_cons_of_ne_nil some, List.map_cons, List.cons_append]
  cases whole : rest.splitOn '\n' with
  | nil => exact absurd whole some
  | cons first more =>
    rw [List.getLastD_cons, List.getLastD_cons, List.getLastD_cons]

/-- The places of the columns; `usize::MAX` for a missing one is no place. -/
structure ColMap where
  bucket : Option Nat
  key : Option Nat
  versionId : Option Nat
deriving Repr, DecidableEq

def ColMap.plain : ColMap :=
  ⟨some 0, some 1, some 2⟩

/-- One round of the loop of `header_colmap`. -/
def ColMap.column (map : Option ColMap) (col : List Char × Nat) : Option ColMap :=
  map.bind fun map =>
    let name := Text.lower (Text.trim col.1)
    if name = ['b', 'u', 'c', 'k', 'e', 't'] then some { map with bucket := some col.2 }
    else if name = ['k', 'e', 'y'] then some { map with key := some col.2 }
    else if name = ['v', 'e', 'r', 's', 'i', 'o', 'n', 'i', 'd'] then some { map with versionId := some col.2 }
    else none

def headerColmap (cols : List (List Char)) : Option ColMap :=
  (cols.zipIdx.foldl ColMap.column (some ⟨none, none, none⟩)).filter fun map =>
    map.bucket.isSome && map.key.isSome

/-- `cols.get(i)`. -/
def columnAt (cols : List (List Char)) (place : Option Nat) : Option (List Char) :=
  place.bind fun i => cols[i]?

def lineError {α : Type} (i : Nat) (problem : String) : Except Error α :=
  .error (.invalidArgument s!"manifest line {i}: {problem}")

def parseVersionId (i : Nat) (column : Option (List Char)) : Except Error (Option Vk) :=
  match column with
  | none | some [] | some ['-'] => .ok none
  | some ['n', 'u', 'l', 'l'] => .ok (some vkNull)
  | some v =>
    match hexDecode v with
    | none => lineError i "versionId must be hex"
    | some bytes =>
      if bytes.length = 16 then .ok (some bytes) else lineError i "versionId must be 16 bytes"

def parseItem (i : Nat) (map : ColMap) (cols : List (List Char)) : Except Error BatchItem := do
  let bucket := (columnAt cols map.bucket).getD []
  let key := (columnAt cols map.key).getD []
  if bucket = [] ∨ key = [] then lineError i "bucket/key must not be empty"
  else
    let vk ← parseVersionId i (columnAt cols map.versionId)
    return ⟨String.ofList bucket, String.ofList key, vk⟩

/-- What a line does: nothing, name the columns, or give an item. -/
inductive LineEffect where
  | skip
  | columns (map : ColMap)
  | item (item : BatchItem)
deriving Repr, DecidableEq

def parseLine (colmap : Option ColMap) (i : Nat) (line : List Char) : Except Error LineEffect :=
  let line := Text.trim line
  if line = [] ∨ line.head? = some '#' then .ok .skip
  else
    let cols := (line.splitOn ',').map Text.trim
    if cols.length < 2 then lineError i "need bucket,key[,versionId]"
    else
      match colmap, headerColmap cols with
      | some map, _ => (parseItem i map cols).map .item
      | none, some map => .ok (.columns map)
      | none, none => (parseItem i .plain cols).map .item

def parseLines : Option ColMap → Nat → List (List Char) → Except Error (List BatchItem)
  | _, _, [] => .ok []
  | colmap, i, line :: rest => do
      match ← parseLine colmap i line with
      | .skip => parseLines colmap (i + 1) rest
      | .columns map => parseLines (some map) (i + 1) rest
      | .item item => return item :: (← parseLines colmap (i + 1) rest)

def parseManifestCsv (text : List Char) : Except Error (List BatchItem) :=
  parseLines none 0 (lines text)

/-- A value that `serde_json` reads. -/
inductive Json where
  | string (text : String)
  | array (items : List Json)
  | object (fields : List (String × Json))
  | other

def Json.get (value : Json) (name : String) : Option Json :=
  match value with
  | .object fields => (fields.find? fun field => field.1 = name).map Prod.snd
  | _ => none

def fileKey (file : Json) : Except Error String :=
  match file.get "key" with
  | some (.string key) => .ok key
  | _ => .error (.invalidArgument "manifest.json file missing key")

/-- `fromStr` is `serde_json::from_str`. -/
def inventoryFileKeys (fromStr : List Char → Except String Json) (text : List Char) :
    Except Error (List String) :=
  match fromStr (Text.trimStart text) with
  | .error e => .error (.invalidArgument s!"manifest.json: {e}")
  | .ok v =>
    match v.get "files" with
    | some (.array files) => files.mapM fileKey
    | _ => .error (.invalidArgument "manifest.json missing files[]")

end FastS3.Batch
