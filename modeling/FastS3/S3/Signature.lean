import FastS3.Data.Separated
import FastS3.Data.Words
import FastS3.S3.PutRequest

namespace FastS3.S3

open Data
open FastS3.Core (Bytes eqIgnoreAsciiCase utf8)

/-! Signatures of requests: the canonical text of a request, and what it says about the request. -/

/-- A request as the parser of the protocol hands it over: the path is not decoded, the query is, and no
part of the first line contains a line end. -/
structure SignedRequest where
  method : String
  rawPath : String
  query : List (String × String)
  headers : List (String × String)
  methodLine : '\n' ∉ method.toList
  pathLine : '\n' ∉ rawPath.toList

def asBytes (text : List Char) : Bytes :=
  (String.ofList text).toUTF8.data.toList

def hexLetter (letter : Char) (value : Nat) : Char :=
  if value < 10 then Char.ofNat ('0'.toNat + value) else Char.ofNat (letter.toNat + (value - 10))

def isUnreserved (c : Char) : Bool :=
  ('A' ≤ c && c ≤ 'Z') || ('a' ≤ c && c ≤ 'z') || ('0' ≤ c && c ≤ '9') || c = '-' || c = '_' || c = '.' ||
    c = '~'

def uriByte (byte : UInt8) : List Char :=
  let c := Char.ofNat byte.toNat
  if isUnreserved c then [c]
  else ['%', hexLetter 'A' (byte.toNat / 16), hexLetter 'A' (byte.toNat % 16)]

def uriEncode (s : String) : List Char :=
  (asBytes s.toList).flatMap uriByte

/-- `hex::encode`. -/
def hexLower (bytes : Bytes) : List Char :=
  bytes.flatMap fun byte => [hexLetter 'a' (byte.toNat / 16), hexLetter 'a' (byte.toNat % 16)]

def pairLe (left right : String × String) : Bool :=
  left.1 < right.1 || (left.1 = right.1 && left.2 ≤ right.2)

def canonicalQuery (query : List (String × String)) (exclude : List String) : List Char :=
  let items := query.filter fun pair => !exclude.contains pair.1
  ['&'].intercalate ((items.insertionSort fun left right => pairLe left right).map fun pair =>
    uriEncode pair.1 ++ '=' :: uriEncode pair.2)

def headerValues (headers : List (String × String)) (name : String) : List String :=
  (headers.filter fun header => eqIgnoreAsciiCase header.1 name).map Prod.snd

def compress (value : String) : List Char :=
  Text.squeeze false (Text.trim value.toList)

def canonicalLines (lowercase : String → String) (headers : List (String × String))
    (signed : List String) : Option (List (String × List Char)) :=
  signed.mapM fun name =>
    let lower := lowercase name
    (headers.find? fun header => eqIgnoreAsciiCase header.1 lower).map fun header =>
      (lower, compress header.2)

def headerLines (lines : List (String × List Char)) : List Char :=
  (lines.insertionSort fun left right => left.1 ≤ right.1).flatMap fun line =>
    line.1.toList ++ [':'] ++ line.2 ++ ['\n']

def canonicalHeaders (lowercase : String → String) (headers : List (String × String))
    (signed : List String) : Except S3Error (List Char) :=
  match canonicalLines lowercase headers signed with
  | some lines => .ok (headerLines lines)
  | none =>
    .error ⟨.signatureDoesNotMatch, "SignedHeaders contains a header not present in the request"⟩

def PayloadHash.text : PayloadHash → String
  | .hexSha256 hex => hex
  | .unsigned => "UNSIGNED-PAYLOAD"
  | .streaming => "STREAMING-AWS4-HMAC-SHA256-PAYLOAD"
  | .streamingSignedTrailer => "STREAMING-AWS4-HMAC-SHA256-PAYLOAD-TRAILER"
  | .streamingUnsignedTrailer => "STREAMING-UNSIGNED-PAYLOAD-TRAILER"

def canonicalRequest (method path : String) (query : List Char) (signedHeadersList : List Char)
    (headers : List Char) (payloadHash : String) : List Char :=
  method.toList ++ '\n' :: (path.toList ++ '\n' :: (query ++ '\n' :: (headers ++ '\n' ::
    (signedHeadersList ++ '\n' :: payloadHash.toList))))

def signatureParameter : String := "X-Amz-Signature"

def excludedQuery (query : List (String × String)) : List String :=
  if query.any fun pair => pair.1 = signatureParameter then [signatureParameter] else []

def SignedRequest.canonical (request : SignedRequest) (lowercase : String → String) (signed : List String)
    (payload : PayloadHash) : Except S3Error (List Char) :=
  match canonicalHeaders lowercase request.headers signed with
  | .error e => .error e
  | .ok headers =>
    .ok (canonicalRequest request.method request.rawPath
      (canonicalQuery request.query (excludedQuery request.query))
      ([';'].intercalate (signed.map String.toList)) headers payload.text)

structure Crypto where
  sha256 : Bytes → Bytes
  hmac : Bytes → Bytes → Bytes

structure Crypto.CollisionFree (crypto : Crypto) : Prop where
  sha256 : ∀ left right, crypto.sha256 left = crypto.sha256 right → left = right
  hmac : ∀ key key' left right, crypto.hmac key left = crypto.hmac key' right → left = right

def algorithm : String := "AWS4-HMAC-SHA256"

structure ParsedAuth where
  accessKey : String
  date : String
  region : String
  service : String
  signedHeaders : List String
  signature : String
deriving Repr, DecidableEq

def stringToSign (crypto : Crypto) (amzDate date region : String) (canonical : List Char) : List Char :=
  algorithm.toList ++ '\n' :: (amzDate.toList ++ '\n' :: (date.toList ++ '/' :: (region.toList ++
    "/s3/aws4_request".toList ++ '\n' :: hexLower (crypto.sha256 (asBytes canonical)))))

def signingKey (crypto : Crypto) (secret date region : String) : Bytes :=
  let kDate := crypto.hmac (asBytes ("AWS4".toList ++ secret.toList)) (asBytes date.toList)
  let kRegion := crypto.hmac kDate (asBytes region.toList)
  let kService := crypto.hmac kRegion (asBytes "s3".toList)
  crypto.hmac kService (asBytes "aws4_request".toList)

def constantTimeEq (a b : Bytes) : Bool :=
  if a.length ≠ b.length then false
  else (a.zip b).foldl (fun diff pair => diff ||| (pair.1 ^^^ pair.2)) (0 : UInt8) = 0

def verifySignature (crypto : Crypto) (lowercase : String → String) (request : SignedRequest)
    (parsed : ParsedAuth) (amzDate secret : String) (payload : PayloadHash) : Except S3Error Unit :=
  match request.canonical lowercase parsed.signedHeaders payload with
  | .error e => .error e
  | .ok canonical =>
    let sts := stringToSign crypto amzDate parsed.date parsed.region canonical
    let expected := hexLower (crypto.hmac (signingKey crypto secret parsed.date parsed.region) (asBytes sts))
    if constantTimeEq (asBytes expected) (asBytes parsed.signature.toList) then .ok ()
    else
      .error ⟨.signatureDoesNotMatch,
        "The request signature we calculated does not match the signature you provided. " ++
          "String-to-sign: " ++ String.ofList sts⟩

section Encodings

theorem asBytes_eq (text : List Char) : asBytes text = text.flatMap String.utf8EncodeChar := by
  rw [asBytes, String.toUTF8, String.toByteArray_ofList, List.utf8Encode, List.data_toByteArray]

theorem asBytes_inj {left right : List Char} (same : asBytes left = asBytes right) : left = right := by
  have arrays : (String.ofList left).toUTF8.data = (String.ofList right).toUTF8.data :=
    Array.toList_inj.mp same
  have texts : String.ofList left = String.ofList right := String.toByteArray_inj.mp (ByteArray.ext arrays)
  exact String.ofList_inj.mp texts

theorem toNat_ofNat_byte : ∀ n < 256, (Char.ofNat n).toNat = n := by decide +kernel

theorem char_inj {byte other : UInt8} (same : Char.ofNat byte.toNat = Char.ofNat other.toNat) :
    byte = other := by
  have codes := congrArg Char.toNat same
  rw [toNat_ofNat_byte _ byte.toNat_lt, toNat_ofNat_byte _ other.toNat_lt] at codes
  exact UInt8.toNat_inj.mp codes

variable {letter c : Char}

theorem toNat_hexLetter (known : letter = 'a' ∨ letter = 'A') :
    ∀ value < 16, (hexLetter letter value).toNat =
      if value < 10 then 48 + value else letter.toNat + (value - 10) := by
  rcases known with rfl | rfl
  · decide +kernel
  · decide +kernel

theorem hexLetter_inj (known : letter = 'a' ∨ letter = 'A') {value other : Nat} (bound : value < 16)
    (bound' : other < 16) (same : hexLetter letter value = hexLetter letter other) :
    value = other := by
  have codes := congrArg Char.toNat same
  rw [toNat_hexLetter known value bound, toNat_hexLetter known other bound'] at codes
  have larger : 58 ≤ letter.toNat := by
    rcases known with rfl | rfl
    · decide
    · decide
  split at codes <;> split at codes <;> omega

theorem hexLetters_inj (known : letter = 'a' ∨ letter = 'A') {byte other : UInt8}
    (high : hexLetter letter (byte.toNat / 16) = hexLetter letter (other.toNat / 16))
    (low : hexLetter letter (byte.toNat % 16) = hexLetter letter (other.toNat % 16)) :
    byte = other := by
  have bound := byte.toNat_lt
  have bound' := other.toNat_lt
  have highs := hexLetter_inj known (by omega) (by omega) high
  have lows := hexLetter_inj known (by omega) (by omega) low
  exact UInt8.toNat_inj.mp (by omega)

theorem unreserved_ne {other : Char} (plain : isUnreserved c = true)
    (reserved : isUnreserved other = false) : c ≠ other := by
  intro same
  rw [same, reserved] at plain
  cases plain

theorem uriByte_apart (byte other : UInt8) (rest rest' : List Char)
    (same : uriByte byte ++ rest = uriByte other ++ rest') : byte = other ∧ rest = rest' := by
  rw [uriByte, uriByte] at same
  by_cases plain : isUnreserved (Char.ofNat byte.toNat) = true
  · by_cases plain' : isUnreserved (Char.ofNat other.toNat) = true
    · rw [if_pos plain, if_pos plain'] at same
      obtain ⟨head, tail⟩ := List.cons.inj same
      exact ⟨char_inj head, tail⟩
    · rw [if_pos plain, if_neg plain'] at same
      exact absurd (List.cons.inj same).1 (unreserved_ne plain (by decide))
  · by_cases plain' : isUnreserved (Char.ofNat other.toNat) = true
    · rw [if_neg plain, if_pos plain'] at same
      exact absurd (List.cons.inj same).1.symm (unreserved_ne plain' (by decide))
    · rw [if_neg plain, if_neg plain'] at same
      obtain ⟨_, digits⟩ := List.cons.inj same
      obtain ⟨high, digits⟩ := List.cons.inj digits
      obtain ⟨low, tail⟩ := List.cons.inj digits
      exact ⟨hexLetters_inj (by decide) high low, tail⟩

theorem uriEncode_inj {left right : String} (same : uriEncode left = uriEncode right) : left = right := by
  have filled : ∀ byte, uriByte byte ≠ [] := by
    intro byte
    rw [uriByte]
    split <;> simp
  have bytes := asBytes_inj (Separated.flatMap_inj filled uriByte_apart same)
  exact String.toList_inj.mp bytes

theorem mem_uriEncode {s : String} (member : c ∈ uriEncode s) : c ≠ '\n' ∧ c ≠ '&' ∧ c ≠ '=' := by
  have digits : ∀ value < 16, hexLetter 'A' value ≠ '\n' ∧ hexLetter 'A' value ≠ '&' ∧
      hexLetter 'A' value ≠ '=' := by decide
  obtain ⟨byte, _, inside⟩ := List.mem_flatMap.mp member
  have bound := byte.toNat_lt
  rw [uriByte] at inside
  split at inside
  · next plain =>
      rw [List.mem_singleton.mp inside]
      exact ⟨unreserved_ne plain (by decide), unreserved_ne plain (by decide),
        unreserved_ne plain (by decide)⟩
  · simp only [List.mem_cons, List.not_mem_nil, or_false] at inside
    rcases inside with rfl | rfl | rfl
    · decide
    · exact digits _ (by omega)
    · exact digits _ (by omega)

theorem hexLower_inj {left right : Bytes} (same : hexLower left = hexLower right) : left = right := by
  refine Separated.flatMap_inj (fun byte => by simp) ?_ same
  intro byte other rest rest' equal
  obtain ⟨high, digits⟩ := List.cons.inj equal
  obtain ⟨low, tail⟩ := List.cons.inj digits
  exact ⟨hexLetters_inj (by decide) high low, tail⟩

theorem mem_hexLower {bytes : Bytes} (member : c ∈ hexLower bytes) : c ≠ '\n' := by
  have digits : ∀ value < 16, hexLetter 'a' value ≠ '\n' := by decide
  obtain ⟨byte, _, inside⟩ := List.mem_flatMap.mp member
  have bound := byte.toNat_lt
  simp only [List.mem_cons, List.not_mem_nil, or_false] at inside
  rcases inside with rfl | rfl
  · exact digits _ (by omega)
  · exact digits _ (by omega)

theorem constantTimeEq_iff {a b : Bytes} : constantTimeEq a b = true ↔ a = b := by
  have loop : ∀ (a b : Bytes) (diff : UInt8), a.length = b.length →
      ((a.zip b).foldl (fun diff pair => diff ||| (pair.1 ^^^ pair.2)) diff = 0 ↔ diff = 0 ∧ a = b) := by
    intro a
    induction a with
    | nil =>
      intro b diff lengths
      obtain rfl := List.length_eq_zero_iff.mp lengths.symm
      simp
    | cons x rest ih =>
      intro b diff lengths
      cases b with
      | nil => cases lengths
      | cons y others =>
        rw [List.zip_cons_cons, List.foldl_cons, ih others _ (Nat.succ.inj lengths)]
        simp only [UInt8.or_eq_zero_iff, UInt8.xor_eq_zero_iff, List.cons.injEq]
        exact and_assoc
  rw [constantTimeEq]
  by_cases lengths : a.length = b.length
  · rw [if_neg (by simp [lengths]), decide_eq_true_eq, loop a b 0 lengths]
    simp
  · rw [if_pos lengths]
    constructor
    · intro impossible
      cases impossible
    · intro same
      exact absurd (congrArg List.length same) lengths

end Encodings

section Canonical

theorem canonicalQuery_piece {pair other : String × String}
    (same : uriEncode pair.1 ++ '=' :: uriEncode pair.2 = uriEncode other.1 ++ '=' :: uriEncode other.2) :
    pair = other := by
  obtain ⟨keys, values⟩ := Separated.first_part (fun inside => (mem_uriEncode inside).2.2 rfl)
    (fun inside => (mem_uriEncode inside).2.2 rfl) same
  exact Prod.ext (uriEncode_inj keys) (uriEncode_inj values)

theorem encoded_pieces (items : List (String × String)) : ∀ piece ∈ items.map (fun pair =>
    uriEncode pair.1 ++ '=' :: uriEncode pair.2), '&' ∉ piece ∧ piece ≠ [] := by
  intro piece member
  obtain ⟨pair, _, rfl⟩ := List.mem_map.mp member
  refine ⟨?_, by simp⟩
  intro inside
  rcases List.mem_append.mp inside with key | rest
  · exact (mem_uriEncode key).2.1 rfl
  · rcases List.mem_cons.mp rest with impossible | value
    · cases impossible
    · exact (mem_uriEncode value).2.1 rfl

theorem canonicalQuery_perm {query query' : List (String × String)} {exclude exclude' : List String}
    (same : canonicalQuery query exclude = canonicalQuery query' exclude') :
    (query.filter fun pair => !exclude.contains pair.1).Perm
      (query'.filter fun pair => !exclude'.contains pair.1) := by
  have pieces := Separated.intercalate_inj (encoded_pieces _) (encoded_pieces _) same
  have items := List.map_injective_iff.mpr (fun _ _ => canonicalQuery_piece) pieces
  have sorted := List.perm_insertionSort (fun left right => pairLe left right = true)
    (query.filter fun pair => !exclude.contains pair.1)
  have sorted' := List.perm_insertionSort (fun left right => pairLe left right = true)
    (query'.filter fun pair => !exclude'.contains pair.1)
  exact sorted.symm.trans ((List.Perm.of_eq items).trans sorted')

theorem canonicalQuery_line {query : List (String × String)} {exclude : List String} :
    '\n' ∉ canonicalQuery query exclude := by
  intro inside
  rcases Separated.mem_intercalate inside with impossible | ⟨piece, listed, inside⟩
  · cases impossible
  · obtain ⟨pair, _, rfl⟩ := List.mem_map.mp listed
    rcases List.mem_append.mp inside with key | rest
    · exact (mem_uriEncode key).1 rfl
    · rcases List.mem_cons.mp rest with impossible | value
      · cases impossible
      · exact (mem_uriEncode value).1 rfl

def parameters (query : List (String × String)) : List (String × String) :=
  query.filter fun pair => pair.1 ≠ signatureParameter

theorem excludedQuery_filter (query : List (String × String)) :
    (query.filter fun pair => !(excludedQuery query).contains pair.1) = parameters query := by
  rw [parameters]
  apply List.filter_congr
  intro pair member
  rw [excludedQuery]
  split
  · simp
  · next absent =>
      have other : pair.1 ≠ signatureParameter := by
        intro same
        exact absent (List.any_eq_true.mpr ⟨pair, member, by simpa using same⟩)
      simp [other]

variable {lowercase : String → String} {headers headers' : List (String × String)} {signed : List String}
  {lines lines' : List (String × List Char)} {rest rest' : List Char}

theorem canonicalLines_spec (found : canonicalLines lowercase headers signed = some lines) :
    lines.map Prod.fst = signed.map lowercase ∧
      (∀ name ∈ signed, ∃ value, (headerValues headers (lowercase name)).head? = some value ∧
        (lowercase name, compress value) ∈ lines) ∧
      ∀ line ∈ lines, ∃ value, (headerValues headers line.1).head? = some value ∧ line.2 = compress value := by
  rw [canonicalLines] at found
  induction signed generalizing lines with
  | nil =>
    cases found
    refine ⟨rfl, ?_, ?_⟩
    · intro name impossible
      cases impossible
    · intro line impossible
      cases impossible
  | cons name signed ih =>
    rw [List.mapM_cons] at found
    obtain ⟨line, own, found⟩ := Option.bind_eq_some_iff.mp found
    obtain ⟨others, later, found⟩ := Option.bind_eq_some_iff.mp found
    cases found
    obtain ⟨names, each, back⟩ := ih later
    obtain ⟨header, first, rfl⟩ := Option.map_eq_some_iff.mp own
    have head : (headerValues headers (lowercase name)).head? = some header.2 := by
      rw [headerValues, List.head?_map, List.head?_filter, first]
      rfl
    refine ⟨?_, ?_, ?_⟩
    · rw [List.map_cons, List.map_cons, names]
    · intro other member
      rcases List.mem_cons.mp member with rfl | member
      · exact ⟨header.2, head, List.mem_cons_self⟩
      · obtain ⟨value, held, listed⟩ := each other member
        exact ⟨value, held, List.mem_cons_of_mem _ listed⟩
    · intro line member
      rcases List.mem_cons.mp member with rfl | member
      · exact ⟨header.2, head, rfl⟩
      · exact back line member

theorem compress_line (value : String) : '\n' ∉ compress value := by
  intro inside
  rcases Text.mem_squeeze inside with impossible | letter
  · exact absurd impossible (by decide)
  · exact absurd letter (by decide)

theorem headerLines_inj (found : canonicalLines lowercase headers signed = some lines)
    (found' : canonicalLines lowercase headers' signed = some lines')
    (same : headerLines lines ++ rest = headerLines lines' ++ rest') :
    rest = rest' ∧ ∀ name ∈ signed, ∃ value value',
      (headerValues headers (lowercase name)).head? = some value ∧
        (headerValues headers' (lowercase name)).head? = some value' ∧ compress value = compress value' := by
  obtain ⟨names, each, back⟩ := canonicalLines_spec found
  obtain ⟨names', _, back'⟩ := canonicalLines_spec found'
  have sortedNames : ∀ lines : List (String × List Char),
      (lines.insertionSort fun left right => left.1 ≤ right.1).map Prod.fst =
        (lines.map Prod.fst).insertionSort (· ≤ ·) := by
    intro lines
    exact List.map_insertionSort _ _ _ lines fun _ _ _ _ => Iff.rfl
  have clean : ∀ {lines : List (String × List Char)} {headers : List (String × String)},
      (∀ line ∈ lines, ∃ value, (headerValues headers line.1).head? = some value ∧
        line.2 = compress value) →
      ∀ line ∈ lines.insertionSort fun left right => left.1 ≤ right.1, '\n' ∉ line.2 := by
    intro lines headers back line member
    obtain ⟨value, _, own⟩ := back line ((List.mem_insertionSort _).mp member)
    rw [own]
    exact compress_line value
  have equalNames : (lines.insertionSort fun left right => left.1 ≤ right.1).map Prod.fst =
      (lines'.insertionSort fun left right => left.1 ≤ right.1).map Prod.fst := by
    rw [sortedNames, sortedNames, names, names']
  obtain ⟨sorted, rests⟩ := Separated.lines_inj (fun name : String => name.toList ++ [':']) equalNames
    (clean back) (clean back') same
  refine ⟨rests, ?_⟩
  intro name member
  obtain ⟨value, held, listed⟩ := each name member
  have other : (lowercase name, compress value) ∈ lines' := by
    rw [← List.mem_insertionSort fun left right : String × List Char => left.1 ≤ right.1, ← sorted,
      List.mem_insertionSort]
    exact listed
  obtain ⟨value', held', own⟩ := back' _ other
  exact ⟨value, value', held, held', own⟩

theorem words_of_compress {value value' : String} (same : compress value = compress value') :
    Text.words value.toList = Text.words value'.toList := by
  have words := congrArg Text.words same
  rwa [compress, compress, Text.words_squeeze, Text.words_squeeze, Text.words_trim, Text.words_trim] at words

end Canonical

def valueWords (headers : List (String × String)) (name : String) : List (List (List Char)) :=
  (headerValues headers name).map fun value => Text.words value.toList

/-- Two requests say the same as far as their signed headers go. -/
structure SameRequest (lowercase : String → String) (signed : List String) (left right : SignedRequest) :
    Prop where
  method : left.method = right.method
  path : left.rawPath = right.rawPath
  query : (parameters left.query).Perm (parameters right.query)
  headers : ∀ name ∈ signed, valueWords left.headers (lowercase name) =
    valueWords right.headers (lowercase name)

section Requests

variable {lowercase : String → String} {left right : SignedRequest} {signed : List String}
  {payload payload' : PayloadHash} {text text' : List Char}

theorem canonical_ok (built : left.canonical lowercase signed payload = .ok text) :
    ∃ lines, canonicalLines lowercase left.headers signed = some lines ∧
      text = canonicalRequest left.method left.rawPath
        (canonicalQuery left.query (excludedQuery left.query))
        ([';'].intercalate (signed.map String.toList)) (headerLines lines) payload.text := by
  rw [SignedRequest.canonical, canonicalHeaders] at built
  cases found : canonicalLines lowercase left.headers signed with
  | none =>
    rw [found] at built
    cases built
  | some lines =>
    rw [found] at built
    cases built
    exact ⟨lines, rfl, rfl⟩

theorem canonical_inj (built : left.canonical lowercase signed payload = .ok text)
    (built' : right.canonical lowercase signed payload' = .ok text) :
    left.method = right.method ∧ left.rawPath = right.rawPath ∧
      (parameters left.query).Perm (parameters right.query) ∧
      ∀ name ∈ signed, (valueWords left.headers (lowercase name)).head? =
        (valueWords right.headers (lowercase name)).head? := by
  obtain ⟨lines, found, whole⟩ := canonical_ok built
  obtain ⟨lines', found', whole'⟩ := canonical_ok built'
  rw [whole, canonicalRequest, canonicalRequest] at whole'
  obtain ⟨methods, rest⟩ := Separated.first_part left.methodLine right.methodLine whole'
  obtain ⟨paths, rest⟩ := Separated.first_part left.pathLine right.pathLine rest
  obtain ⟨queries, rest⟩ := Separated.first_part canonicalQuery_line canonicalQuery_line rest
  obtain ⟨_, values⟩ := headerLines_inj found found' rest
  refine ⟨String.toList_inj.mp methods, String.toList_inj.mp paths, ?_, ?_⟩
  · have perm := canonicalQuery_perm queries
    rwa [excludedQuery_filter, excludedQuery_filter] at perm
  · intro name member
    obtain ⟨value, value', first, first', same⟩ := values name member
    rw [valueWords, valueWords, List.head?_map, List.head?_map, first, first']
    exact congrArg some (words_of_compress same)

theorem lists_eq_iff {α : Type} {xs ys : List α} (heads : xs.head? = ys.head?) :
    xs = ys ↔ xs.tail = ys.tail := by
  constructor
  · intro same
    rw [same]
  · intro tails
    cases xs with
    | nil =>
      cases ys with
      | nil => rfl
      | cons y ys => cases heads
    | cons x xs =>
      cases ys with
      | nil => cases heads
      | cons y ys =>
        cases heads
        exact congrArg (x :: ·) tails

theorem verifySignature_text {crypto : Crypto} (free : crypto.CollisionFree) {parsed parsed' : ParsedAuth}
    {amzDate amzDate' secret secret' : String} (names : parsed.signedHeaders = signed)
    (names' : parsed'.signedHeaders = signed) (same : parsed.signature = parsed'.signature)
    (verified : verifySignature crypto lowercase left parsed amzDate secret payload = .ok ())
    (verified' : verifySignature crypto lowercase right parsed' amzDate' secret' payload' = .ok ()) :
    ∃ text, left.canonical lowercase signed payload = .ok text ∧
      right.canonical lowercase signed payload' = .ok text := by
  have opened : ∀ {request : SignedRequest} {parsed : ParsedAuth} {amzDate secret : String}
      {payload : PayloadHash}, parsed.signedHeaders = signed →
      verifySignature crypto lowercase request parsed amzDate secret payload = .ok () →
      ∃ text, request.canonical lowercase signed payload = .ok text ∧
        parsed.signature.toList = hexLower (crypto.hmac
          (signingKey crypto secret parsed.date parsed.region)
          (asBytes (stringToSign crypto amzDate parsed.date parsed.region text))) := by
    intro request parsed amzDate secret payload names verified
    rw [verifySignature, names] at verified
    cases built : request.canonical lowercase signed payload with
    | error e =>
      rw [built] at verified
      cases verified
    | ok text =>
      simp only [built] at verified
      split at verified
      · next equal => exact ⟨text, rfl, (asBytes_inj (constantTimeEq_iff.mp equal)).symm⟩
      · cases verified
  obtain ⟨text, built, signature⟩ := opened names verified
  obtain ⟨text', built', signature'⟩ := opened names' verified'
  rw [same, signature'] at signature
  have texts := asBytes_inj (free.hmac _ _ _ _ (hexLower_inj signature))
  have digests : hexLower (crypto.sha256 (asBytes text')) = hexLower (crypto.sha256 (asBytes text)) := by
    have split : ∀ (amzDate date region : String) (text : List Char),
        stringToSign crypto amzDate date region text =
          (algorithm.toList ++ '\n' :: (amzDate.toList ++ '\n' :: (date.toList ++ '/' :: (region.toList ++
            "/s3/aws4_request".toList)))) ++ '\n' :: hexLower (crypto.sha256 (asBytes text)) := by
      intro amzDate date region text
      simp [stringToSign]
    rw [split, split] at texts
    exact (Separated.last_part (fun inside => mem_hexLower inside rfl)
      (fun inside => mem_hexLower inside rfl) texts).2
  have equal := asBytes_inj (free.sha256 _ _ (hexLower_inj digests))
  rw [← equal] at built
  exact ⟨text', built, built'⟩

/-- Requests with one canonical text are the same exactly if the values of every signed header agree
behind the first one, and a signature verifies for one canonical text only. -/
theorem signature_binds_iff (lowercase : String → String) (left right : SignedRequest)
    (signed : List String) (payload payload' : PayloadHash) :
    (∀ text, left.canonical lowercase signed payload = .ok text →
      right.canonical lowercase signed payload' = .ok text →
      (left.method = right.method ∧ left.rawPath = right.rawPath ∧
        (parameters left.query).Perm (parameters right.query)) ∧
      (SameRequest lowercase signed left right ↔ ∀ name ∈ signed,
        (valueWords left.headers (lowercase name)).tail =
          (valueWords right.headers (lowercase name)).tail)) ∧
    ∀ (crypto : Crypto), crypto.CollisionFree → ∀ (parsed parsed' : ParsedAuth)
      (amzDate amzDate' secret secret' : String), parsed.signedHeaders = signed →
      parsed'.signedHeaders = signed → parsed.signature = parsed'.signature →
      verifySignature crypto lowercase left parsed amzDate secret payload = .ok () →
      verifySignature crypto lowercase right parsed' amzDate' secret' payload' = .ok () →
      ∃ text, left.canonical lowercase signed payload = .ok text ∧
        right.canonical lowercase signed payload' = .ok text := by
  constructor
  · intro text built built'
    obtain ⟨methods, paths, queries, heads⟩ := canonical_inj built built'
    refine ⟨⟨methods, paths, queries⟩, ?_⟩
    constructor
    · intro same name member
      exact (lists_eq_iff (heads name member)).mp (same.headers name member)
    · intro tails
      exact ⟨methods, paths, queries,
        fun name member => (lists_eq_iff (heads name member)).mpr (tails name member)⟩
  · intro crypto free parsed parsed' amzDate amzDate' secret secret' names names' same verified verified'
    exact verifySignature_text free names names' same verified verified'

end Requests

def taggedOnce : SignedRequest where
  method := "PUT"
  rawPath := "/bucket/key"
  query := []
  headers := [("host", "s3"), ("x-amz-meta-level", "public")]
  methodLine := by decide
  pathLine := by decide

def taggedWide : SignedRequest :=
  { taggedOnce with headers := [("host", "s3"), ("x-amz-meta-level", "  public ")] }

def taggedTwice : SignedRequest :=
  { taggedOnce with headers := taggedOnce.headers ++ [("x-amz-meta-level", "secret")] }

def taggedLines : List (String × List Char) :=
  [("host", compress "s3"), ("x-amz-meta-level", compress "public")]

theorem tagged_canonical {request other : SignedRequest} {signed : List String}
    {lines : List (String × List Char)} (sent : request.method = other.method ∧
      request.rawPath = other.rawPath ∧ request.query = other.query)
    (found : canonicalLines String.toLower request.headers signed = some lines)
    (found' : canonicalLines String.toLower other.headers signed = some lines) :
    ∃ text, request.canonical String.toLower signed .unsigned = .ok text ∧
      other.canonical String.toLower signed .unsigned = .ok text := by
  simp only [SignedRequest.canonical, canonicalHeaders, found, found', sent.1, sent.2.1, sent.2.2]
  exact ⟨_, rfl, rfl⟩

theorem signature_binds_blanks :
    SameRequest String.toLower ["host", "x-amz-meta-level"] taggedOnce taggedWide := by
  have once : canonicalLines String.toLower taggedOnce.headers ["host", "x-amz-meta-level"] =
      some taggedLines := by decide +kernel
  have wide : canonicalLines String.toLower taggedWide.headers ["host", "x-amz-meta-level"] =
      some taggedLines := by decide +kernel
  have sent : taggedOnce.method = taggedWide.method ∧ taggedOnce.rawPath = taggedWide.rawPath ∧
      taggedOnce.query = taggedWide.query := ⟨rfl, rfl, rfl⟩
  obtain ⟨text, built, built'⟩ := tagged_canonical sent once wide
  obtain ⟨_, bound⟩ := (signature_binds_iff String.toLower taggedOnce taggedWide
    ["host", "x-amz-meta-level"] .unsigned .unsigned).1 text built built'
  apply bound.mpr
  decide +kernel

theorem signature_forgets_repeats :
    (∃ text, taggedOnce.canonical String.toLower ["host", "x-amz-meta-level"] .unsigned = .ok text ∧
      taggedTwice.canonical String.toLower ["host", "x-amz-meta-level"] .unsigned = .ok text) ∧
      ¬SameRequest String.toLower ["host", "x-amz-meta-level"] taggedOnce taggedTwice := by
  constructor
  · have once : canonicalLines String.toLower taggedOnce.headers ["host", "x-amz-meta-level"] =
        some taggedLines := by decide +kernel
    have twice : canonicalLines String.toLower taggedTwice.headers ["host", "x-amz-meta-level"] =
        some taggedLines := by decide +kernel
    have sent : taggedOnce.method = taggedTwice.method ∧ taggedOnce.rawPath = taggedTwice.rawPath ∧
        taggedOnce.query = taggedTwice.query := ⟨rfl, rfl, rfl⟩
    exact tagged_canonical sent once twice
  · intro same
    have values := same.headers "x-amz-meta-level" (by decide)
    revert values
    decide +kernel

end FastS3.S3
