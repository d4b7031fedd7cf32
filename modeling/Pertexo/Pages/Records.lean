import Pertexo.Values.BoundedJson
import Pertexo.Values.JsonText

/-!
# Encoded page records

## Limits
-/

namespace Pertexo
namespace Pages

open Library
open Values

structure FilePageLimits where
  fileBytes : Nat
  totalBytes : Nat
  totalItems : Nat
  pages : Nat
  bytes : Nat
  items : Nat
  depth : Nat
  members : Nat

def filePageLimits : FilePageLimits :=
  { fileBytes := 10485760
    totalBytes := 10485760
    totalItems := 100000
    pages := 256
    bytes := 65536
    items := 1000
    depth := 48
    members := 4000 }

/-- The inline byte limit of a stored execution value. -/
def storedInlineBytes : Nat :=
  262144

/-!
## Refusals
-/

inductive FilePagesReason where
  | storage
  | record
  | text
  | bytes
  | items
  | pages
  | descriptor
deriving DecidableEq, Repr

/-!
## Texts of stored values

Every text of a record is one that a stored execution value may hold: it is well
formed, has no zero character, and is short enough.
-/

def unicodeWidth (unit : UInt16) : Nat :=
  if unit.toNat <= 0x7f then 1
  else if unit.toNat <= 0x7ff then 2
  else if isHighSurrogate unit then 4
  else 3

def isShortEscape (unit : UInt16) : Bool :=
  [0x22, 0x5c, 0x08, 0x0c, 0x0a, 0x0d, 0x09].contains unit

/-- A character of two units is counted at its first one; the second is skipped. -/
def storedUnitBytes (unit : UInt16) : Nat :=
  if isShortEscape unit then 2
  else if unit.toNat <= 0x1f then 6
  else unicodeWidth unit

def storedTextBytes (bytes : Nat) : ScriptString -> Option Nat
  | [] => some bytes
  | [unit] =>
      if unit == 0 || decide (bytes + storedUnitBytes unit > storedInlineBytes) then none
      else some (bytes + storedUnitBytes unit)
  | unit :: next :: rest =>
      if unit == 0 || decide (bytes + storedUnitBytes unit > storedInlineBytes) then none
      else if storedUnitBytes unit == 4 then storedTextBytes (bytes + storedUnitBytes unit) rest
      else storedTextBytes (bytes + storedUnitBytes unit) (next :: rest)

/-- No result means that the text violates the persistence contract. -/
def storedExecutionJsonStringBytes (value : ScriptString) : Option Nat :=
  if decide (value.length > storedInlineBytes - 2) || !isWellFormed value then none
  else storedTextBytes 2 value

/-!
## Records
-/

structure EncodedFilePageRecord where
  json : List Char
  bytes : Nat
  members : Nat
deriving DecidableEq

section

variable {Number : Type}

mutual

/-- The members below a value, once all of its keys and texts have been checked. -/
def countNestedMembers : BoundedJsonValue Number -> Option Nat
  | .string text => (storedExecutionJsonStringBytes text).map fun _ => 0
  | .array items => (countItems items).map fun nested => items.length + nested
  | .object members => (countMembers members).map fun nested => members.length + nested
  | _ => some 0

def countItems : List (BoundedJsonValue Number) -> Option Nat
  | [] => some 0
  | item :: rest => do
      let first ← countNestedMembers item
      let others ← countItems rest
      return first + others

def countMembers : List (ScriptString × BoundedJsonValue Number) -> Option Nat
  | [] => some 0
  | (key, value) :: rest => do
      let _ ← storedExecutionJsonStringBytes key
      let first ← countNestedMembers value
      let others ← countMembers rest
      return first + others

end

/-- The record itself is a member of its page. -/
def countRecordMembers (snapshot : BoundedJsonValue Number) : Option Nat :=
  (countNestedMembers snapshot).map fun nested => 1 + nested

def recordLimits : BoundedJsonLimits :=
  { bytes := filePageLimits.bytes - 2
    depth := filePageLimits.depth - 1
    members := filePageLimits.members - 1 }

variable [ScriptNumber Number]

def encodeFilePageRecord (value : ScriptValue Number) :
    Except FilePagesReason EncodedFilePageRecord :=
  match canonicalizeBoundedJson value recordLimits with
  | .error _ => .error .record
  | .ok snapshot =>
      match countRecordMembers snapshot with
      | none => .error .text
      | some members =>
          let json := stringify snapshot
          .ok { json, bytes := utf8ByteLength json, members }

end

/-!
## What an encoded record carries

An accepted record carries the text of a snapshot that fits a page of its own,
with the bytes and members that the snapshot takes in a page.
-/

section

variable {Number : Type}

mutual

theorem countNestedMembers_eq (value : BoundedJsonValue Number) {nested : Nat}
    (h : countNestedMembers value = some nested) : nested = value.memberCount := by
  match value with
  | .null =>
      cases h
      rfl
  | .bool value =>
      cases h
      rfl
  | .number value =>
      cases h
      rfl
  | .string text =>
      rw [countNestedMembers] at h
      rcases Option.map_eq_some_iff.mp h with ⟨_, _, rfl⟩
      rfl
  | .array items =>
      rw [countNestedMembers] at h
      rcases Option.map_eq_some_iff.mp h with ⟨count, hcount, rfl⟩
      rw [countItems_eq items hcount, BoundedJsonValue.memberCount]
  | .object members =>
      rw [countNestedMembers] at h
      rcases Option.map_eq_some_iff.mp h with ⟨count, hcount, rfl⟩
      rw [countMembers_eq members hcount, BoundedJsonValue.memberCount]

theorem countItems_eq (items : List (BoundedJsonValue Number)) {nested : Nat}
    (h : countItems items = some nested) : nested = itemsCount items := by
  match items with
  | [] =>
      cases h
      rfl
  | item :: rest =>
      rw [countItems] at h
      rcases Option.bind_eq_some_iff.mp h with ⟨first, hfirst, hrest⟩
      rcases Option.bind_eq_some_iff.mp hrest with ⟨others, hothers, hsum⟩
      cases hsum
      rw [countNestedMembers_eq item hfirst, countItems_eq rest hothers, itemsCount]

theorem countMembers_eq (members : List (ScriptString × BoundedJsonValue Number)) {nested : Nat}
    (h : countMembers members = some nested) : nested = membersCount members := by
  match members with
  | [] =>
      cases h
      rfl
  | (key, value) :: rest =>
      rw [countMembers] at h
      rcases Option.bind_eq_some_iff.mp h with ⟨_, _, hchecked⟩
      rcases Option.bind_eq_some_iff.mp hchecked with ⟨first, hfirst, hrest⟩
      rcases Option.bind_eq_some_iff.mp hrest with ⟨others, hothers, hsum⟩
      cases hsum
      rw [countNestedMembers_eq value hfirst, countMembers_eq rest hothers, membersCount]

end

theorem countRecordMembers_eq {snapshot : BoundedJsonValue Number} {members : Nat}
    (h : countRecordMembers snapshot = some members) : members = 1 + snapshot.memberCount := by
  rw [countRecordMembers] at h
  rcases Option.map_eq_some_iff.mp h with ⟨nested, hnested, rfl⟩
  rw [countNestedMembers_eq snapshot hnested]

variable [ScriptNumber Number]

structure RecordOf (snapshot : BoundedJsonValue Number) (record : EncodedFilePageRecord) :
    Prop where
  fits : SnapshotFits recordLimits snapshot
  counted : countRecordMembers snapshot = some record.members
  json : record.json = stringify snapshot
  bytes : record.bytes = utf8ByteLength record.json

theorem exists_recordOf {value : ScriptValue Number} {record : EncodedFilePageRecord}
    (h : encodeFilePageRecord value = .ok record) :
    exists snapshot, canonicalizeBoundedJson value recordLimits = .ok snapshot ∧
      RecordOf snapshot record := by
  rw [encodeFilePageRecord] at h
  split at h
  · cases h
  · next snapshot hsnapshot =>
    split at h
    · cases h
    · next members hmembers =>
      cases h
      have hinspected := (canonicalizeBoundedJson_eq_ok_iff (by decide)).mp hsnapshot
      exact ⟨snapshot, hsnapshot,
        { fits := snapshotFits_of_inspectBoundedJson (by decide) hinspected
          counted := hmembers
          json := rfl
          bytes := rfl }⟩

/-- A snapshot that was encoded once is encoded again, to the same record. -/
theorem RecordOf.encodeFilePageRecord {snapshot : BoundedJsonValue Number}
    {record : EncodedFilePageRecord} (h : RecordOf snapshot record) :
    encodeFilePageRecord snapshot.script = .ok record := by
  have hsnapshot : canonicalizeBoundedJson snapshot.script recordLimits = .ok snapshot :=
    (canonicalizeBoundedJson_eq_ok_iff (by decide)).mpr
      (inspectBoundedJson_script (by decide) h.fits)
  have hjson := h.json
  have hbytes := h.bytes
  rw [Pages.encodeFilePageRecord, hsnapshot]
  simp only [h.counted, ← hjson, ← hbytes]

end

/-!
## References and their schemas
-/

structure NodeArtifactReference where
  artifactId : String
  byteLength : Nat
  mediaType : String
  sha256 : String
deriving DecidableEq, Repr

structure FilePageReference where
  kind : String
  reference : NodeArtifactReference
deriving DecidableEq, Repr

structure FilePageBundle where
  pages : List FilePageReference
  itemCount : Nat
  pageCount : Nat
deriving DecidableEq, Repr

def isScriptSpace (c : Char) : Bool :=
  (decide (0x09 ≤ c.toNat) && decide (c.toNat ≤ 0x0d)) ||
    (decide (0x2000 ≤ c.toNat) && decide (c.toNat ≤ 0x200a)) ||
    [0x20, 0xa0, 0x1680, 0x2028, 0x2029, 0x202f, 0x205f, 0x3000, 0xfeff].contains c.toNat

/-- A type without blanks, then a slash, then the rest of the line. -/
def isMediaTypePair (text : List Char) : Bool :=
  let isTypeChar : Char -> Bool := fun c => !isScriptSpace c && c != '/' && c != ';'
  match text.dropWhile isTypeChar with
  | '/' :: subtype =>
      !(text.takeWhile isTypeChar).isEmpty && !subtype.isEmpty &&
        subtype.all fun c => c != '\r' && c != '\n'
  | _ => false

def isMediaTypeChar (c : Char) : Bool :=
  c == '\t' || (decide (0x20 ≤ c.toNat) && decide (c.toNat ≤ 0x7e)) ||
    (decide (0x80 ≤ c.toNat) && decide (c.toNat ≤ 0xff))

def isMediaType (text : String) : Bool :=
  decide (3 ≤ utf16Length text) && decide (utf16Length text ≤ 255) &&
    isMediaTypePair text.toList && text.toList.all isMediaTypeChar

def isSha256 (text : String) : Bool :=
  text.toList.length == 64 && text.toList.all isLowerHex

section

variable (isUuid : String -> Bool)

def nodeArtifactReferenceSchema (reference : NodeArtifactReference) : Bool :=
  isUuid reference.artifactId && decide (reference.byteLength ≤ 5 * 1024 * 1024 * 1024) &&
    isMediaType reference.mediaType && isSha256 reference.sha256

def filePageReferenceSchema (page : FilePageReference) : Bool :=
  nodeArtifactReferenceSchema isUuid page.reference && page.kind == "artifact" &&
    decide (2 ≤ page.reference.byteLength) &&
    decide (page.reference.byteLength ≤ filePageLimits.bytes)

def filePageBundleSchema (bundle : FilePageBundle) : Bool :=
  decide (bundle.pages.length ≤ filePageLimits.pages) &&
    bundle.pages.all (filePageReferenceSchema isUuid) &&
    decide (bundle.itemCount ≤ filePageLimits.totalItems) &&
    decide (bundle.pageCount ≤ filePageLimits.pages) &&
    bundle.pages.length == bundle.pageCount

end

/-!
## The size of a bundle's text
-/

def referenceValue (page : FilePageReference) : BoundedJsonValue Nat :=
  .object
    [(scriptString "kind", .string (scriptString page.kind)),
      (scriptString "artifactId", .string (scriptString page.reference.artifactId)),
      (scriptString "byteLength", .number page.reference.byteLength),
      (scriptString "mediaType", .string (scriptString page.reference.mediaType)),
      (scriptString "sha256", .string (scriptString page.reference.sha256))]

def bundleValue (bundle : FilePageBundle) : BoundedJsonValue Nat :=
  .object
    [(scriptString "pages", .array (bundle.pages.map referenceValue)),
      (scriptString "itemCount", .number bundle.itemCount),
      (scriptString "pageCount", .number bundle.pageCount)]

def descriptorBytes (bundle : FilePageBundle) : Nat :=
  utf8ByteLength (stringify (bundleValue bundle))

@[simp] theorem utf8ByteLength_nil : utf8ByteLength [] = 0 :=
  rfl

@[simp] theorem utf8ByteLength_cons (c : Char) (rest : List Char) :
    utf8ByteLength (c :: rest) = c.utf8Size + utf8ByteLength rest := by
  simp [utf8ByteLength]

@[simp] theorem utf8ByteLength_append (left right : List Char) :
    utf8ByteLength (left ++ right) = utf8ByteLength left + utf8ByteLength right := by
  simp [utf8ByteLength]

theorem utf8ByteLength_toDigits (n : Nat) :
    utf8ByteLength (Nat.toDigits 10 n) = (Nat.toDigits 10 n).length := by
  have hall : forall c, c ∈ Nat.toDigits 10 n -> c.utf8Size = 1 := by
    intro c hc
    have hdigit := Nat.isDigit_of_mem_toDigits (by decide) (by decide) hc
    rw [Char.utf8Size_eq_one_iff]
    simp only [Char.isDigit, Bool.and_eq_true, decide_eq_true_eq] at hdigit
    exact UInt32.le_trans hdigit.right (by decide)
  rw [utf8ByteLength, List.map_congr_left hall]
  simp

theorem length_toDigits_le {m n : Nat} (h : m ≤ n) :
    (Nat.toDigits 10 m).length ≤ (Nat.toDigits 10 n).length := by
  induction n using Nat.strongRecOn generalizing m with
  | ind n ih =>
      by_cases hsmall : m < 10
      · rw [Nat.toDigits_of_lt_base hsmall]
        exact List.length_pos_of_ne_nil Nat.toDigits_ne_nil
      · rw [Nat.toDigits_of_base_le (b := 10) (by decide) (Nat.le_of_not_lt hsmall),
          Nat.toDigits_of_base_le (b := 10) (n := n) (by decide) (by omega)]
        have hshorter := @ih (n / 10) (by omega) (m / 10) (Nat.div_le_div_right h)
        simp only [List.length_append, List.length_singleton]
        omega

theorem utf8ByteLength_commaJoin_append (left right : List (List Char)) :
    utf8ByteLength (commaJoin left) ≤ utf8ByteLength (commaJoin (left ++ right)) := by
  induction left with
  | nil => exact Nat.zero_le _
  | cons text rest ih =>
      cases rest with
      | nil =>
          cases right with
          | nil => exact Nat.le_refl _
          | cons next others =>
              change utf8ByteLength text ≤ utf8ByteLength (commaJoin (text :: next :: others))
              rw [commaJoin_cons (by simp), utf8ByteLength_append]
              exact Nat.le_add_right _ _
      | cons next others =>
          have hjoined : commaJoin (text :: next :: others ++ right) =
              text ++ ',' :: commaJoin (next :: others ++ right) :=
            commaJoin_cons (by simp)
          rw [hjoined, commaJoin_cons (by simp), utf8ByteLength_append, utf8ByteLength_append,
            utf8ByteLength_cons, utf8ByteLength_cons]
          omega

/-- A bundle of more pages and items takes at least as many bytes. -/
theorem descriptorBytes_le {pages added : List FilePageReference}
    {itemCount pageCount allItems allPages : Nat} (hitems : itemCount ≤ allItems)
    (hpages : pageCount ≤ allPages) :
    descriptorBytes (FilePageBundle.mk pages itemCount pageCount) ≤
      descriptorBytes (FilePageBundle.mk (pages ++ added) allItems allPages) := by
  have hitemDigits := length_toDigits_le hitems
  have hpageDigits := length_toDigits_le hpages
  have hjoined := utf8ByteLength_commaJoin_append ((pages.map referenceValue).map stringify)
    ((added.map referenceValue).map stringify)
  simp only [descriptorBytes, bundleValue, stringify, stringifyMembers, stringifyItems_eq_map,
    commaJoin, ScriptNumber.text, List.map_append, List.cons_append, utf8ByteLength_append,
    utf8ByteLength_cons, utf8ByteLength_toDigits, utf8ByteLength_nil] at hjoined ⊢
  omega

end Pages
end Pertexo
