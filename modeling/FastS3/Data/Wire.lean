import Mathlib.Tactic

namespace FastS3.Data

/-! Byte formats without field names: a value is its fields one behind the other, and a
reader takes a value from the front and leaves what stands behind it.  `number`, `utf8`,
`option`, `vec` and `pair` are the documented wire format of `postcard`. -/

/-- How values of a type are written and read. What was written is read back whatever
follows; and no accepted bytes are fewer than those the value is written with. -/
structure Wire (α : Type) where
  put : α → List UInt8
  take : List UInt8 → Option (α × List UInt8)
  nonempty : ∀ value, 0 < (put value).length
  take_put : ∀ value rest, take (put value ++ rest) = some (value, rest)
  shortest : ∀ bytes value rest, take bytes = some (value, rest) →
    (put value).length + rest.length ≤ bytes.length

namespace Wire

variable {α β γ : Type}

def fromBytes (wire : Wire α) (bytes : List UInt8) : Option α :=
  (wire.take bytes).map Prod.fst

theorem fromBytes_put (wire : Wire α) (value : α) :
    wire.fromBytes (wire.put value) = some value := by
  have whole := wire.take_put value []
  rw [List.append_nil] at whole
  rw [fromBytes, whole]
  rfl

theorem take_nil (wire : Wire α) : wire.take [] = none := by
  cases taken : wire.take [] with
  | none => rfl
  | some found =>
    obtain ⟨value, rest⟩ := found
    have counted := wire.shortest [] value rest taken
    have written := wire.nonempty value
    simp only [List.length_nil] at counted
    omega

def putVarint (value : Nat) : List UInt8 :=
  if value < 128 then [UInt8.ofNat value]
  else UInt8.ofNat (value % 128 + 128) :: putVarint (value / 128)
termination_by value
decreasing_by omega

/-- Reads at most `groups` bytes of a number. -/
def takeVarint : Nat → List UInt8 → Option (Nat × List UInt8)
  | 0, _ => none
  | _ + 1, [] => none
  | groups + 1, byte :: rest =>
    if byte.toNat < 128 then some (byte.toNat, rest)
    else (takeVarint groups rest).map fun found => (byte.toNat - 128 + 128 * found.1, found.2)

theorem putVarint_nonempty (value : Nat) : 0 < (putVarint value).length := by
  rw [putVarint]
  split
  · exact Nat.one_pos
  · exact Nat.succ_pos _

theorem takeVarint_put {groups value : Nat} (fits : value < 128 ^ (groups + 1))
    (rest : List UInt8) : takeVarint (groups + 1) (putVarint value ++ rest) = some (value, rest) := by
  induction groups generalizing value with
  | zero =>
    have small : value < 128 := by simpa using fits
    have byte : (UInt8.ofNat value).toNat = value := by simp; omega
    rw [putVarint, if_pos small, List.singleton_append, takeVarint, byte, if_pos small]
  | succ groups hypothesis =>
    rw [putVarint]
    split
    · next small =>
        have byte : (UInt8.ofNat value).toNat = value := by simp; omega
        rw [List.singleton_append, takeVarint, byte, if_pos small]
    · have smaller : value / 128 < 128 ^ (groups + 1) := by
        rw [Nat.div_lt_iff_lt_mul (by decide)]
        rwa [← Nat.pow_succ]
      have byte : (UInt8.ofNat (value % 128 + 128)).toNat = value % 128 + 128 := by
        simp only [UInt8.toNat_ofNat']
        omega
      have whole : value % 128 + 128 - 128 + 128 * (value / 128) = value := by omega
      rw [List.cons_append, takeVarint, byte, if_neg (by omega), hypothesis smaller,
        Option.map_some, whole]

theorem takeVarint_shortest {groups value : Nat} {bytes rest : List UInt8}
    (taken : takeVarint groups bytes = some (value, rest)) :
    (putVarint value).length + rest.length ≤ bytes.length := by
  induction groups generalizing bytes value with
  | zero => cases taken
  | succ groups hypothesis =>
    cases bytes with
    | nil => cases taken
    | cons byte tail =>
      rw [takeVarint] at taken
      split at taken
      · next small =>
          cases taken
          rw [putVarint, if_pos small]
          simp only [List.length_cons, List.length_nil]
          omega
      · cases found : takeVarint groups tail with
        | none => rw [found] at taken; cases taken
        | some high =>
          rw [found] at taken
          cases taken
          have counted := hypothesis found
          have byteBound := byte.toNat_lt
          rw [putVarint]
          split
          · have written := putVarint_nonempty high.1
            simp only [List.length_nil, List.length_cons]
            omega
          · have part : (byte.toNat - 128 + 128 * high.1) / 128 = high.1 := by omega
            rw [part, List.length_cons, List.length_cons]
            omega

/-- A type read from the values of another: `into` accepts just what `out` gives. -/
def refine (wire : Wire α) (out : β → α) (into : α → Option β)
    (into_out : ∀ value, into (out value) = some value)
    (out_into : ∀ raw value, into raw = some value → out value = raw) : Wire β where
  put value := wire.put (out value)
  take bytes := (wire.take bytes).bind fun found => (into found.1).map (·, found.2)
  nonempty value := wire.nonempty (out value)
  take_put value rest := by
    rw [wire.take_put, Option.bind_some, into_out]
    rfl
  shortest bytes value rest taken := by
    cases found : wire.take bytes with
    | none => rw [found] at taken; cases taken
    | some pair =>
      obtain ⟨raw, behind⟩ := pair
      rw [found, Option.bind_some] at taken
      cases accepted : into raw with
      | none => rw [accepted] at taken; cases taken
      | some result =>
        rw [accepted] at taken
        cases taken
        rw [out_into raw value accepted]
        exact wire.shortest bytes raw behind found

def record (wire : Wire α) (out : β → α) (into : α → β) (into_out : ∀ value, into (out value) = value)
    (out_into : ∀ raw, out (into raw) = raw) : Wire β :=
  wire.refine out (fun raw => some (into raw)) (fun value => by rw [into_out])
    fun raw _ same => by cases same; exact out_into raw

/-- Numbers below `bound`, in at most `groups + 1` bytes. -/
def number (groups bound : Nat) (fits : bound ≤ 128 ^ (groups + 1)) :
    Wire {value : Nat // value < bound} where
  put value := putVarint value
  take bytes := (takeVarint (groups + 1) bytes).bind fun found =>
    if below : found.1 < bound then some (⟨found.1, below⟩, found.2) else none
  nonempty value := putVarint_nonempty value
  take_put value rest := by
    rw [takeVarint_put (value.2.trans_le fits), Option.bind_some, dif_pos value.2]
  shortest bytes value rest taken := by
    cases found : takeVarint (groups + 1) bytes with
    | none => rw [found] at taken; cases taken
    | some pair =>
      rw [found, Option.bind_some] at taken
      split at taken
      · cases taken
        exact takeVarint_shortest found
      · cases taken

def u64 : Wire UInt64 :=
  (number 9 (2 ^ 64) (by decide)).record (fun value => ⟨value.toNat, value.toNat_lt⟩)
    (fun raw => UInt64.ofNat raw.1) (fun value => UInt64.ofNat_toNat) (fun raw => by
      apply Subtype.ext
      exact UInt64.toNat_ofNat_of_lt raw.2)

def u32 : Wire UInt32 :=
  (number 4 (2 ^ 32) (by decide)).record (fun value => ⟨value.toNat, value.toNat_lt⟩)
    (fun raw => UInt32.ofNat raw.1) (fun value => UInt32.ofNat_toNat) (fun raw => by
      apply Subtype.ext
      exact UInt32.toNat_ofNat_of_lt raw.2)

def zigzag (value : Int) : Nat :=
  if 0 ≤ value then 2 * value.toNat else 2 * (-value).toNat - 1

def unzigzag (value : Nat) : Int :=
  if value % 2 = 0 then (value / 2 : Nat) else -((value / 2 : Nat) : Int) - 1

theorem unzigzag_zigzag (value : Int) : unzigzag (zigzag value) = value := by
  unfold zigzag unzigzag
  split <;> split <;> omega

theorem zigzag_unzigzag (value : Nat) : zigzag (unzigzag value) = value := by
  unfold unzigzag zigzag
  split <;> split <;> omega

theorem zigzag_lt (value : Int64) : zigzag value.toInt < 2 ^ 64 := by
  have low := value.le_toInt
  have high := value.toInt_lt
  unfold zigzag
  split <;> omega

def i64 : Wire Int64 :=
  (number 9 (2 ^ 64) (by decide)).record (fun value => ⟨zigzag value.toInt, zigzag_lt value⟩)
    (fun raw => Int64.ofInt (unzigzag raw.1))
    (fun value => by rw [unzigzag_zigzag, Int64.ofInt_toInt])
    (fun raw => by
      obtain ⟨raw, below⟩ := raw
      apply Subtype.ext
      have inside : -2 ^ 63 ≤ unzigzag raw ∧ unzigzag raw < 2 ^ 63 := by
        unfold unzigzag
        split <;> omega
      change zigzag (Int64.ofInt (unzigzag raw)).toInt = raw
      rw [Int64.toInt_ofInt_of_le inside.1 inside.2, zigzag_unzigzag])

def byte : Wire UInt8 where
  put value := [value]
  take
    | [] => none
    | value :: rest => some (value, rest)
  nonempty _ := Nat.one_pos
  take_put _ _ := rfl
  shortest bytes value rest taken := by
    cases bytes with
    | nil => cases taken
    | cons first tail =>
      cases taken
      rw [List.length_singleton, List.length_cons, Nat.add_comm]

def bool : Wire Bool :=
  byte.refine (fun value => if value then 1 else 0)
    (fun raw => if raw = 0 then some false else if raw = 1 then some true else none)
    (fun value => by cases value <;> rfl)
    fun raw value accepted => by
      split at accepted
      · next zero => cases accepted; exact zero.symm
      · split at accepted
        · next one => cases accepted; exact one.symm
        · cases accepted

def pair (first : Wire α) (second : Wire β) : Wire (α × β) where
  put value := first.put value.1 ++ second.put value.2
  take bytes := (first.take bytes).bind fun one =>
    (second.take one.2).map fun two => ((one.1, two.1), two.2)
  nonempty value := by
    have written := first.nonempty value.1
    rw [List.length_append]
    omega
  take_put value rest := by
    rw [List.append_assoc, first.take_put, Option.bind_some, second.take_put]
    rfl
  shortest bytes value rest taken := by
    cases one : first.take bytes with
    | none => rw [one] at taken; cases taken
    | some found =>
      rw [one, Option.bind_some] at taken
      cases two : second.take found.2 with
      | none => rw [two] at taken; cases taken
      | some behind =>
        rw [two] at taken
        cases taken
        have front := first.shortest bytes found.1 found.2 one
        have back := second.shortest found.2 behind.1 behind.2 two
        rw [List.length_append]
        dsimp only
        omega

def optionPut (wire : Wire α) : Option α → List UInt8
  | none => [0]
  | some value => 1 :: wire.put value

def optionTake (wire : Wire α) (bytes : List UInt8) : Option (Option α × List UInt8) :=
  (bool.take bytes).bind fun flag =>
    if flag.1 then (wire.take flag.2).map fun found => (some found.1, found.2)
    else some (none, flag.2)

theorem optionPut_pos (wire : Wire α) (value : Option α) : 0 < (wire.optionPut value).length := by
  cases value with
  | none => exact Nat.one_pos
  | some value => exact Nat.succ_pos _

theorem optionTake_put (wire : Wire α) (value : Option α) (rest : List UInt8) :
    wire.optionTake (wire.optionPut value ++ rest) = some (value, rest) := by
  cases value with
  | none => rfl
  | some value =>
    change (wire.take (wire.put value ++ rest)).map _ = _
    rw [wire.take_put]
    rfl

theorem optionTake_shortest (wire : Wire α) (bytes : List UInt8) (value : Option α)
    (rest : List UInt8) (taken : wire.optionTake bytes = some (value, rest)) :
    (wire.optionPut value).length + rest.length ≤ bytes.length := by
  rw [optionTake] at taken
  cases flag : bool.take bytes with
  | none => rw [flag] at taken; cases taken
  | some found =>
    obtain ⟨set, behind⟩ := found
    have front := bool.shortest bytes set behind flag
    have flagWritten := bool.nonempty set
    rw [flag, Option.bind_some] at taken
    cases set with
    | false =>
      cases taken
      simp only [optionPut, List.length_cons, List.length_nil]
      omega
    | true =>
      cases inner : wire.take behind with
      | none => rw [if_pos rfl, inner] at taken; cases taken
      | some item =>
        rw [if_pos rfl, inner] at taken
        cases taken
        have back := wire.shortest behind item.1 item.2 inner
        rw [optionPut, List.length_cons]
        omega

def option (wire : Wire α) : Wire (Option α) where
  put := wire.optionPut
  take := wire.optionTake
  nonempty := wire.optionPut_pos
  take_put := wire.optionTake_put
  shortest := wire.optionTake_shortest

def takeItems (wire : Wire α) : Nat → List UInt8 → Option (List α × List UInt8)
  | 0, bytes => some ([], bytes)
  | count + 1, bytes => (wire.take bytes).bind fun first =>
    (takeItems wire count first.2).map fun others => (first.1 :: others.1, others.2)

theorem takeItems_put (wire : Wire α) (items : List α) (rest : List UInt8) :
    takeItems wire items.length (items.flatMap wire.put ++ rest) = some (items, rest) := by
  induction items with
  | nil => rfl
  | cons item items hypothesis =>
    rw [List.flatMap_cons, List.append_assoc, List.length_cons, takeItems, wire.take_put,
      Option.bind_some, hypothesis]
    rfl

theorem takeItems_shortest (wire : Wire α) {count : Nat} {bytes rest : List UInt8}
    {items : List α} (taken : takeItems wire count bytes = some (items, rest)) :
    items.length = count ∧ (items.flatMap wire.put).length + rest.length ≤ bytes.length := by
  induction count generalizing bytes items with
  | zero =>
    cases taken
    exact ⟨rfl, by rw [List.flatMap_nil, List.length_nil, Nat.zero_add]⟩
  | succ count hypothesis =>
    rw [takeItems] at taken
    cases one : wire.take bytes with
    | none => rw [one] at taken; cases taken
    | some first =>
      rw [one, Option.bind_some] at taken
      cases others : takeItems wire count first.2 with
      | none => rw [others] at taken; cases taken
      | some found =>
        rw [others] at taken
        cases taken
        obtain ⟨counted, fits⟩ := hypothesis others
        have front := wire.shortest bytes first.1 first.2 one
        rw [List.length_cons, counted, List.flatMap_cons, List.length_append]
        exact ⟨rfl, by omega⟩

end Wire

abbrev Vec (α : Type) := {items : List α // items.length < 2 ^ 64}

abbrev Utf8 := {text : String // text.utf8ByteSize < 2 ^ 64}

abbrev ByteBlock (size : Nat) := {bytes : List UInt8 // bytes.length = size}

namespace Wire

variable {α : Type}

def length : Wire {value : Nat // value < 2 ^ 64} :=
  number 9 (2 ^ 64) (by decide)

def vec (wire : Wire α) : Wire (Vec α) where
  put value := length.put ⟨value.1.length, value.2⟩ ++ value.1.flatMap wire.put
  take bytes := (length.take bytes).bind fun count =>
    match found : takeItems wire count.1 count.2 with
    | none => none
    | some items => some (⟨items.1, by
        have counted := (takeItems_shortest wire found).1
        rw [counted]
        exact count.1.2⟩, items.2)
  nonempty value := by
    have written := length.nonempty ⟨value.1.length, value.2⟩
    rw [List.length_append]
    omega
  take_put value rest := by
    rw [List.append_assoc, length.take_put, Option.bind_some]
    split
    · next lost => rw [takeItems_put] at lost; cases lost
    · next items found =>
        rw [takeItems_put] at found
        cases found
        rfl
  shortest bytes value rest taken := by
    cases counted : length.take bytes with
    | none => rw [counted] at taken; cases taken
    | some count =>
      rw [counted, Option.bind_some] at taken
      split at taken
      · cases taken
      · next items found =>
          cases taken
          obtain ⟨same, fits⟩ := takeItems_shortest wire found
          have front := length.shortest bytes count.1 count.2 counted
          have head : (⟨items.1.length, same ▸ count.1.2⟩ : {value : Nat // value < 2 ^ 64}) =
              count.1 := Subtype.ext same
          rw [List.length_append, head]
          dsimp only
          omega

theorem vec_put_empty (wire : Wire α) (none : ([] : List α).length < 2 ^ 64) :
    (wire.vec.put ⟨[], none⟩).length = 1 := by
  change (putVarint 0 ++ []).length = 1
  rw [putVarint, if_pos (by decide)]
  rfl

def utf8 : Wire Utf8 where
  put value := length.put ⟨value.1.utf8ByteSize, value.2⟩ ++ value.1.toByteArray.data.toList
  take bytes := (length.take bytes).bind fun count =>
    if enough : count.1 ≤ count.2.length then
      if valid : (ByteArray.mk (count.2.take count.1).toArray).IsValidUTF8 then
        some (⟨⟨_, valid⟩, by
          change (count.2.take count.1).toArray.size < 2 ^ 64
          rw [List.size_toArray, List.length_take, Nat.min_eq_left enough]
          exact count.1.2⟩, count.2.drop count.1)
      else none
    else none
  nonempty value := by
    have written := length.nonempty ⟨value.1.utf8ByteSize, value.2⟩
    rw [List.length_append]
    omega
  take_put value rest := by
    obtain ⟨text, fits⟩ := value
    have size : text.toByteArray.data.toList.length = text.utf8ByteSize := rfl
    have same : ByteArray.mk ((text.toByteArray.data.toList ++ rest).take text.utf8ByteSize).toArray =
        text.toByteArray := by
      rw [← size, List.take_left, Array.toArray_toList]
    rw [List.append_assoc, length.take_put, Option.bind_some, dif_pos (by
      rw [List.length_append, size]
      exact Nat.le_add_right _ _)]
    rw [dif_pos (by rw [same]; exact text.isValidUTF8)]
    congr 2
    · apply Subtype.ext
      exact String.toByteArray_inj.mp same
    · change (text.toByteArray.data.toList ++ rest).drop text.utf8ByteSize = rest
      rw [← size, List.drop_left]
  shortest bytes value rest taken := by
    cases counted : length.take bytes with
    | none => rw [counted] at taken; cases taken
    | some count =>
      rw [counted, Option.bind_some] at taken
      split at taken
      · next enough =>
          split at taken
          · next valid =>
              cases taken
              have size : (String.ofByteArray _ valid).utf8ByteSize = count.1.1 := by
                change (count.2.take count.1).toArray.size = count.1.1
                rw [List.size_toArray, List.length_take, Nat.min_eq_left enough]
              have front := length.shortest bytes count.1 count.2 counted
              have head : (⟨_, size ▸ count.1.2⟩ : {value : Nat // value < 2 ^ 64}) =
                  count.1 := Subtype.ext size
              have body : (String.ofByteArray _ valid).toByteArray.data.toList.length =
                  count.1.1 := size
              rw [List.length_append, head, body, List.length_drop]
              omega
          · cases taken
      · cases taken

def block (size : Nat) : Wire (ByteBlock (size + 1)) where
  put value := value.1
  take bytes :=
    if enough : size + 1 ≤ bytes.length then
      some (⟨bytes.take (size + 1), List.length_take_of_le enough⟩, bytes.drop (size + 1))
    else none
  nonempty value := by rw [value.2]; exact Nat.succ_pos _
  take_put value rest := by
    obtain ⟨bytes, exact⟩ := value
    rw [dif_pos (by rw [List.length_append, exact]; exact Nat.le_add_right _ _)]
    congr 2
    · apply Subtype.ext
      change (bytes ++ rest).take (size + 1) = bytes
      rw [← exact, List.take_left]
    · change (bytes ++ rest).drop (size + 1) = rest
      rw [← exact, List.drop_left]
  shortest bytes value rest taken := by
    split at taken
    · next enough =>
        cases taken
        rw [List.length_take_of_le enough, List.length_drop]
        omega
    · cases taken

/-- `long` needs bytes behind those that `short` reads. -/
def Outgrows {β : Type} (long : Wire β) (short : Wire α) : Prop :=
  ∀ bytes, (∀ value rest, short.take bytes = some (value, rest) → rest = []) →
    long.take bytes = none

variable {β γ : Type}

theorem outgrows_pair (short : Wire α) (field : Wire β) : (short.pair field).Outgrows short := by
  intro bytes spent
  change (short.take bytes).bind _ = none
  cases taken : short.take bytes with
  | none => rfl
  | some found =>
    have nothing : found.2 = [] := spent found.1 found.2 taken
    rw [Option.bind_some, nothing, field.take_nil]
    rfl

theorem Outgrows.record {long : Wire β} {short : Wire α} (grows : long.Outgrows short)
    (out : γ → β) (into : β → γ) (into_out : ∀ value, into (out value) = value)
    (out_into : ∀ raw, out (into raw) = raw) :
    (long.record out into into_out out_into).Outgrows short := by
  intro bytes spent
  change (long.take bytes).bind _ = none
  rw [grows bytes spent]
  rfl

theorem Outgrows.trans {long : Wire γ} {middle : Wire β} {short : Wire α}
    (later : long.Outgrows middle) (earlier : middle.Outgrows short) : long.Outgrows short := by
  intro bytes spent
  apply later
  intro value rest taken
  rw [earlier bytes spent] at taken
  cases taken

theorem fromBytes_record (wire : Wire α) (out : β → α) (into : α → β)
    (into_out : ∀ value, into (out value) = value) (out_into : ∀ raw, out (into raw) = raw)
    (bytes : List UInt8) :
    (wire.record out into into_out out_into).fromBytes bytes = (wire.fromBytes bytes).map into := by
  change Option.map Prod.fst ((wire.take bytes).bind _) = (Option.map Prod.fst (wire.take bytes)).map into
  cases wire.take bytes with
  | none => rfl
  | some found => rfl

theorem fromBytes_of_pair (first : Wire α) (second : Wire β) {bytes : List UInt8} {value : α × β}
    (read : (first.pair second).fromBytes bytes = some value) :
    first.fromBytes bytes = some value.1 := by
  change Option.map Prod.fst ((first.take bytes).bind _) = some value at read
  rw [fromBytes]
  cases one : first.take bytes with
  | none => rw [one] at read; cases read
  | some found =>
    rw [one, Option.bind_some] at read
    cases two : second.take found.2 with
    | none => rw [two] at read; cases read
    | some behind =>
      rw [two] at read
      cases read
      rfl

theorem fromBytes_shortest (wire : Wire α) {bytes : List UInt8} {value : α}
    (read : wire.fromBytes bytes = some value) : (wire.put value).length ≤ bytes.length := by
  obtain ⟨found, taken, same⟩ := Option.map_eq_some_iff.mp read
  have counted := wire.shortest bytes found.1 found.2 taken
  rw [same] at counted
  omega

theorem Outgrows.fromBytes_put {long : Wire β} {short : Wire α} (grows : long.Outgrows short)
    (value : α) : long.fromBytes (short.put value) = none := by
  have nothing : long.take (short.put value) = none := by
    apply grows
    intro found rest taken
    have whole := short.take_put value []
    rw [List.append_nil] at whole
    rw [whole] at taken
    cases taken
    rfl
  rw [fromBytes, nothing]
  rfl

theorem Outgrows.fromBytes_none {long : Wire β} {short : Wire α} (grows : long.Outgrows short)
    {bytes : List UInt8} (nothing : short.fromBytes bytes = none) : long.fromBytes bytes = none := by
  have unread : short.take bytes = none := Option.map_eq_none_iff.mp nothing
  rw [fromBytes, grows bytes (by intro value rest taken; rw [unread] at taken; cases taken)]
  rfl

end Wire

end FastS3.Data
