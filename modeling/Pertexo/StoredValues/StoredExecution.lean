import Pertexo.JsonBoundaries.BoundedWalk
import Pertexo.PortableText.JsonSyntax

/-!
# Stored execution values

What a run keeps of its inputs and outputs is either the identifier of an artifact or a JSON
value of its own, which is copied, measured and written by three separate walks.

## Limits
-/

namespace Pertexo
namespace StoredValues

open Canonical
open JsonBoundaries
open Library
open Pages
open PortableText
open Portability
open Values

structure StoredExecutionValueLimits where
  inlineBytes : Nat
  depth : Nat
  members : Nat

def storedExecutionValueLimits : StoredExecutionValueLimits :=
  { inlineBytes := storedInlineBytes, depth := 64, members := 10000 }

/-- The bytes of a text that is read back from the database. -/
def executionJsonbDatabaseBackstopBytes : Nat :=
  4194304

/-- Why a value is refused; the message is the same for all of these. -/
inductive StoredValueRefusal where
  | bytes
  | text
  | members
  | depth
  | contents
deriving DecidableEq, Repr

/-!
## Copying a value
-/

inductive CloneFrame (Number : Type) where
  | value (value : ProgramValue Number) (containerDepth : Nat) (key : ScriptString)
  | exit (source : Nat) (key : ScriptString)

structure CloneState (Number : Type) where
  active : List Nat
  members : Nat
  bytes : Nat
  targets : List (JsonTarget Number)

structure InlineChildren (Number : Type) where
  members : Nat
  bytes : Nat
  children : List (ScriptString × ProgramValue Number)

def addBytes (bytes amount : Nat) : Except StoredValueRefusal Nat :=
  if bytes + amount > storedExecutionValueLimits.inlineBytes then .error .bytes
  else .ok (bytes + amount)

def jsonStringBytes (value : ScriptString) : Except StoredValueRefusal Nat :=
  match storedExecutionJsonStringBytes value with
  | none => .error .text
  | some amount => .ok amount

def countMember (members : Nat) : Except StoredValueRefusal Nat :=
  if members + 1 > storedExecutionValueLimits.members then .error .members
  else .ok (members + 1)

section

variable {Number : Type}

def enumeratedItems (index : Nat) : List (Bool × OwnProperty (ProgramValue Number)) ->
    List (Nat × OwnProperty (ProgramValue Number))
  | [] => []
  | (_, .missing) :: rest => enumeratedItems (index + 1) rest
  | (isEnumerable, property) :: rest =>
      if isEnumerable then (index, property) :: enumeratedItems (index + 1) rest
      else enumeratedItems (index + 1) rest

def readInlineItem (read : InlineChildren Number)
    (item : Nat × OwnProperty (ProgramValue Number)) :
    Except StoredValueRefusal (InlineChildren Number) :=
  match item.snd with
  | .data value => do
      let members ← countMember read.members
      if item.fst != read.children.length then .error .contents
      else
        let child := (scriptString (toString item.fst), value)
        return { read with members, children := read.children ++ [child] }
  | _ => .error .contents

def readInlineMember (read : InlineChildren Number)
    (member : ScriptString × OwnProperty (ProgramValue Number)) :
    Except StoredValueRefusal (InlineChildren Number) :=
  match member.snd with
  | .data value => do
      let members ← countMember read.members
      let keyBytes ← jsonStringBytes member.fst
      let bytes ← addBytes read.bytes (keyBytes + 1)
      return { members, bytes, children := read.children ++ [(member.fst, value)] }
  | _ => .error .contents

/-- The own names and symbols of a container are the keys that have been enumerated. -/
def assertInlineOwnProperties (item : ProgramValue Number) (enumerableCount : Nat) :
    Except StoredValueRefusal Unit :=
  match item with
  | .array _ hasSymbols hiddenNames shownNames items =>
      if hasSymbols || enumerableCount != items.length ||
          (items.countP fun item => item.snd.isPresent) + hiddenNames + shownNames !=
            items.length then
        .error .contents
      else .ok ()
  | .object _ _ hasSymbols hiddenNames members =>
      if hasSymbols || members.length + hiddenNames != enumerableCount then .error .contents
      else .ok ()
  | _ => .error .contents

/-- A name of an array that stands next to its items is never the next index. -/
def readFurtherNames (shownNames : Nat) : Except StoredValueRefusal Unit :=
  if shownNames = 0 then .ok () else .error .contents

def readInlineChildren (item : ProgramValue Number) (members bytes : Nat) :
    Except StoredValueRefusal (InlineChildren Number × JsonTarget Number) :=
  match item with
  | .array _ _ _ shownNames items =>
      if items.length > storedExecutionValueLimits.members then .error .members
      else do
        let read ← (enumeratedItems 0 items).foldlM readInlineItem
          { members, bytes, children := [] }
        readFurtherNames shownNames
        assertInlineOwnProperties item read.children.length
        let bytes ← addBytes read.bytes (2 + (read.children.length - 1))
        return ({ read with bytes }, .items [])
  | .object _ isPlain _ _ keys =>
      if !isPlain then .error .contents
      else do
        let read ← keys.foldlM readInlineMember { members, bytes, children := [] }
        assertInlineOwnProperties item read.children.length
        let bytes ← addBytes read.bytes (2 + (read.children.length - 1))
        return ({ read with bytes }, .members [])
  | _ => .error .contents

def cloneFrames (children : List (ScriptString × ProgramValue Number)) (containerDepth : Nat)
    (source : Nat) (key : ScriptString) : List (CloneFrame Number) :=
  (children.map fun child => CloneFrame.value child.snd containerDepth child.fst) ++
    [.exit source key]

def cloneContainer (item : ProgramValue Number) (containerDepth : Nat) (key : ScriptString)
    (state : CloneState Number) :
    Except StoredValueRefusal (List (CloneFrame Number) × CloneState Number) :=
  match item.identity? with
  | none => .error .contents
  | some source =>
      if containerDepth > storedExecutionValueLimits.depth then .error .depth
      else if state.active.contains source then .error .contents
      else do
        let (read, target) ← readInlineChildren item state.members state.bytes
        return (cloneFrames read.children (containerDepth + 1) source key,
          { active := source :: state.active
            members := read.members
            bytes := read.bytes
            targets := target :: state.targets })

def assignValue (key : ScriptString) (amount : Nat) (scalar : BoundedJsonValue Number)
    (state : CloneState Number) :
    Except StoredValueRefusal (List (CloneFrame Number) × CloneState Number) := do
  let bytes ← addBytes state.bytes amount
  return ([], { state with bytes, targets := assignTop state.targets key scalar })

variable [ScriptNumber Number]

def cloneValue (item : ProgramValue Number) (containerDepth : Nat) (key : ScriptString)
    (state : CloneState Number) :
    Except StoredValueRefusal (List (CloneFrame Number) × CloneState Number) :=
  match item with
  | .null => assignValue key 4 .null state
  | .bool value => assignValue key (if value then 4 else 5) (.bool value) state
  | .string text => do
      let amount ← jsonStringBytes text
      assignValue key amount (.string text) state
  | .number .notFinite => .error .contents
  | .number .negativeZero =>
      assignValue key (ScriptNumber.text (ScriptNumber.zero : Number)).length
        (.number ScriptNumber.zero) state
  | .number (.finite value) =>
      assignValue key (ScriptNumber.text value).length (.number value) state
  | _ => cloneContainer item containerDepth key state

def cloneFrame (frame : CloneFrame Number) (state : CloneState Number) :
    Except StoredValueRefusal (List (CloneFrame Number) × CloneState Number) :=
  match frame with
  | .exit source key =>
      .ok ([], { state with
        active := state.active.erase source
        targets := leaveTarget key state.targets })
  | .value item containerDepth key => cloneValue item containerDepth key state

end

section

variable {Number : Type}

def CloneFrame.weight : CloneFrame Number -> Nat
  | .value item _ _ => 2 * item.size
  | .exit _ _ => 1

def childSizes (children : List (ScriptString × ProgramValue Number)) : Nat :=
  (children.map fun child => child.snd.size).sum

theorem childSizes_concat (children : List (ScriptString × ProgramValue Number))
    (key : ScriptString) (value : ProgramValue Number) :
    childSizes (children ++ [(key, value)]) = childSizes children + value.size := by
  rw [childSizes, List.map_append, List.sum_append]
  show childSizes children + (value.size + 0) = _
  rw [Nat.add_zero]

theorem readInlineItem_ok {read next : InlineChildren Number}
    {item : Nat × OwnProperty (ProgramValue Number)} (h : readInlineItem read item = .ok next) :
    exists value, item = (read.children.length, .data value) ∧
      countMember read.members = .ok next.members ∧ next.bytes = read.bytes ∧
        next.children = read.children ++ [(scriptString (toString item.fst), value)] := by
  rcases item with ⟨index, property⟩
  cases property with
  | missing => cases h
  | accessor answer => cases h
  | data value =>
      rcases exists_of_bind_eq_ok h with ⟨members, hmembers, h⟩
      split at h
      · cases h
      · next hindex =>
        cases h
        rw [bne_iff_ne, not_not] at hindex
        exact ⟨value, by rw [← hindex], hmembers, rfl, rfl⟩

theorem readInlineMember_ok {read next : InlineChildren Number}
    {member : ScriptString × OwnProperty (ProgramValue Number)}
    (h : readInlineMember read member = .ok next) :
    exists value, member.snd = .data value ∧
      next.children = read.children ++ [(member.fst, value)] := by
  rcases member with ⟨key, property⟩
  cases property with
  | missing => cases h
  | accessor answer => cases h
  | data value =>
      rcases exists_of_bind_eq_ok h with ⟨members, _, h⟩
      rcases exists_of_bind_eq_ok h with ⟨keyBytes, _, h⟩
      rcases exists_of_bind_eq_ok h with ⟨bytes, _, h⟩
      cases h
      exact ⟨value, rfl, rfl⟩

theorem childSizes_items {items : List (Bool × OwnProperty (ProgramValue Number))} {index : Nat}
    {read final : InlineChildren Number}
    (h : (enumeratedItems index items).foldlM readInlineItem read = .ok final) :
    childSizes final.children ≤ childSizes read.children + sizeOfItems items := by
  induction items generalizing index read with
  | nil =>
      cases h
      exact Nat.le_refl _
  | cons item rest ih =>
      rcases item with ⟨isEnumerable, property⟩
      cases property with
      | missing =>
          have hrest := @ih (index + 1) read h
          rw [sizeOfItems]
          omega
      | accessor answer =>
          rw [enumeratedItems] at h
          · split at h
            · cases h
            · have hrest := @ih (index + 1) read h
              rw [sizeOfItems]
              omega
          · intro hmissing
            cases hmissing
      | data value =>
          rw [enumeratedItems] at h
          · split at h
            · rw [List.foldlM_cons] at h
              rcases exists_of_bind_eq_ok h with ⟨next, hfirst, h⟩
              rcases readInlineItem_ok hfirst with ⟨found, hitem, _, _, hchildren⟩
              cases hitem
              have hrest := @ih _ next h
              rw [hchildren, childSizes_concat] at hrest
              rw [sizeOfItems]
              omega
            · have hrest := @ih (index + 1) read h
              rw [sizeOfItems]
              omega
          · intro hmissing
            cases hmissing

theorem childSizes_members
    {members : List (ScriptString × OwnProperty (ProgramValue Number))}
    {read final : InlineChildren Number} (h : members.foldlM readInlineMember read = .ok final) :
    childSizes final.children ≤ childSizes read.children + sizeOfMembers members := by
  induction members generalizing read with
  | nil =>
      cases h
      exact Nat.le_refl _
  | cons member rest ih =>
      rw [List.foldlM_cons] at h
      rcases exists_of_bind_eq_ok h with ⟨next, hfirst, h⟩
      rcases readInlineMember_ok hfirst with ⟨value, hvalue, hchildren⟩
      have hrest := ih h
      rcases member with ⟨key, property⟩
      cases hvalue
      rw [hchildren, childSizes_concat] at hrest
      rw [sizeOfMembers]
      omega

theorem childSizes_readInlineChildren {item : ProgramValue Number} {members bytes : Nat}
    {read : InlineChildren Number} {target : JsonTarget Number}
    (h : readInlineChildren item members bytes = .ok (read, target)) :
    childSizes read.children < item.size := by
  cases item with
  | array identity hasSymbols hiddenNames shownNames items =>
      rw [readInlineChildren] at h
      split at h
      · cases h
      · rcases exists_of_bind_eq_ok h with ⟨found, hfound, h⟩
        rcases exists_of_bind_eq_ok h with ⟨_, _, h⟩
        rcases exists_of_bind_eq_ok h with ⟨_, _, h⟩
        rcases exists_of_bind_eq_ok h with ⟨total, _, h⟩
        cases h
        have hsizes : childSizes found.children ≤ 0 + sizeOfItems items := childSizes_items hfound
        show childSizes found.children < 1 + sizeOfItems items
        omega
  | object identity isPlain hasSymbols hiddenNames keys =>
      rw [readInlineChildren] at h
      split at h
      · cases h
      · rcases exists_of_bind_eq_ok h with ⟨found, hfound, h⟩
        rcases exists_of_bind_eq_ok h with ⟨_, _, h⟩
        rcases exists_of_bind_eq_ok h with ⟨total, _, h⟩
        cases h
        have hsizes : childSizes found.children ≤ 0 + sizeOfMembers keys :=
          childSizes_members hfound
        show childSizes found.children < 1 + sizeOfMembers keys
        omega
  | null => cases h
  | bool value => cases h
  | number value => cases h
  | string text => cases h
  | unsupported typeName => cases h

theorem weight_cloneFrames (children : List (ScriptString × ProgramValue Number))
    (containerDepth source : Nat) (key : ScriptString) :
    ((cloneFrames children containerDepth source key).map CloneFrame.weight).sum =
      2 * childSizes children + 1 := by
  rw [cloneFrames, List.map_append, List.sum_append]
  show _ + 1 = _
  congr 1
  induction children with
  | nil => rfl
  | cons child rest ih =>
      rw [List.map_cons, List.map_cons, List.sum_cons, ih]
      show 2 * child.snd.size + 2 * childSizes rest = 2 * (child.snd.size + childSizes rest)
      rw [Nat.mul_add]

theorem weight_cloneContainer {item : ProgramValue Number} {containerDepth : Nat}
    {key : ScriptString} {state next : CloneState Number} {pushed : List (CloneFrame Number)}
    (h : cloneContainer item containerDepth key state = .ok (pushed, next)) :
    (pushed.map CloneFrame.weight).sum < 2 * item.size := by
  rw [cloneContainer] at h
  split at h
  · cases h
  · split at h
    · cases h
    · split at h
      · cases h
      · rcases exists_of_bind_eq_ok h with ⟨⟨read, target⟩, hread, h⟩
        cases h
        have hsizes := childSizes_readInlineChildren hread
        rw [weight_cloneFrames]
        omega

theorem weight_assignValue {key : ScriptString} {amount : Nat} {scalar : BoundedJsonValue Number}
    {state next : CloneState Number} {pushed : List (CloneFrame Number)}
    (h : assignValue key amount scalar state = .ok (pushed, next)) : pushed = [] := by
  rcases exists_of_bind_eq_ok h with ⟨bytes, _, h⟩
  cases h
  rfl

variable [ScriptNumber Number]

theorem weight_cloneValue {item : ProgramValue Number} {containerDepth : Nat}
    {key : ScriptString} {state next : CloneState Number} {pushed : List (CloneFrame Number)}
    (h : cloneValue item containerDepth key state = .ok (pushed, next)) :
    (pushed.map CloneFrame.weight).sum < 2 * item.size := by
  have hpos := size_pos item
  have hassigned : pushed = [] -> (pushed.map CloneFrame.weight).sum < 2 * item.size := by
    intro hnone
    rw [hnone]
    show 0 < 2 * item.size
    omega
  cases item with
  | null => exact hassigned (weight_assignValue h)
  | bool value => exact hassigned (weight_assignValue h)
  | string text =>
      rcases exists_of_bind_eq_ok h with ⟨amount, _, h⟩
      exact hassigned (weight_assignValue h)
  | number value =>
      cases value with
      | finite value => exact hassigned (weight_assignValue h)
      | negativeZero => exact hassigned (weight_assignValue h)
      | notFinite => cases h
  | unsupported typeName => cases h
  | array identity hasSymbols hiddenNames shownNames items => exact weight_cloneContainer h
  | object identity isPlain hasSymbols hiddenNames members => exact weight_cloneContainer h

def cloneMachine (Number : Type) [ScriptNumber Number] :
    StackMachine (CloneFrame Number) (CloneState Number) StoredValueRefusal where
  take := cloneFrame
  weight := CloneFrame.weight
  lighter := by
    intro frame state pushed next h
    cases frame with
    | exit source key =>
        cases h
        exact Nat.one_pos
    | value item containerDepth key => exact weight_cloneValue h

def rootKey : ScriptString :=
  scriptString "value"

def rootValue : List (JsonTarget Number) -> Except StoredValueRefusal (BoundedJsonValue Number)
  | .members held :: _ =>
      match held.lookup rootKey with
      | some value => .ok value
      | none => .error .contents
  | _ => .error .contents

def cloneInlineJson (value : ProgramValue Number) :
    Except StoredValueRefusal (BoundedJsonValue Number) := do
  let state ← (cloneMachine Number).run [.value value 1 rootKey]
    { active := [], members := 0, bytes := 0, targets := [.members []] }
  rootValue state.targets

end

/-!
## Reading a stored value
-/

inductive StoredExecutionValue (Number : Type) where
  | artifact (artifactId : ScriptString)
  | inline (value : BoundedJsonValue Number)

section

variable {Number : Type}

mutual

/-- A parsed value in memory, with the depth of each container as its identity. -/
def programValue (depth : Nat) : GraphValue Number -> ProgramValue Number
  | .null => .null
  | .bool value => .bool value
  | .number value => .number value
  | .string text => .string text
  | .array items => .array depth false 0 0 (programItems (depth + 1) items)
  | .object members => .object depth true false 0 (programMembers (depth + 1) members)

def programItems (depth : Nat) :
    List (GraphValue Number) -> List (Bool × OwnProperty (ProgramValue Number))
  | [] => []
  | item :: rest => (true, .data (programValue depth item)) :: programItems depth rest

def programMembers (depth : Nat) :
    GraphMembers Number -> List (ScriptString × OwnProperty (ProgramValue Number))
  | [] => []
  | (name, value) :: rest => (name, .data (programValue depth value)) :: programMembers depth rest

end

def readField (maximumFields : Nat) (fields : List (ScriptString × ProgramValue Number))
    (member : ScriptString × OwnProperty (ProgramValue Number)) :
    Except StoredValueRefusal (List (ScriptString × ProgramValue Number)) :=
  match member.snd with
  | .data value =>
      if fields.length + 1 > maximumFields then .error .contents
      else .ok (fields ++ [(member.fst, value)])
  | _ => .error .contents

def ownDataRecord (value : ProgramValue Number) (maximumFields : Nat) :
    Except StoredValueRefusal (List (ScriptString × ProgramValue Number)) :=
  match value with
  | .object _ isPlain hasSymbols hiddenNames members =>
      if !isPlain then .error .contents
      else do
        let fields ← members.foldlM (readField maximumFields) []
        if members.length + hiddenNames != fields.length || hasSymbols then .error .contents
        else return fields
  | _ => .error .contents

/-- The pattern of an identifier, on code units. -/
def isUuidText (text : ScriptString) : Bool :=
  isUuid (String.ofList (text.map unitChar))

variable [ScriptNumber Number]

/-- A text is parsed; anything else is looked at as it is. -/
def readInput (value : ProgramValue Number) : Except StoredValueRefusal (ProgramValue Number) :=
  match value with
  | .string text =>
      if JsonBoundaries.utf8ByteLength (codePoints text) none >
          executionJsonbDatabaseBackstopBytes then
        .error .bytes
      else
        match (parseText text : Option (GraphValue Number)) with
        | none => .error .contents
        | some parsed => .ok (programValue 0 parsed)
  | other => .ok other

def parseArtifact (fields : List (ScriptString × ProgramValue Number)) :
    Except StoredValueRefusal (StoredExecutionValue Number) :=
  if fields.length != 2 then .error .contents
  else
    match fields.lookup (scriptString "artifactId") with
    | some (.string artifactId) =>
        if isUuidText artifactId then .ok (.artifact artifactId) else .error .contents
    | _ => .error .contents

def parseInline (fields : List (ScriptString × ProgramValue Number)) :
    Except StoredValueRefusal (StoredExecutionValue Number) :=
  if fields.length != 2 then .error .contents
  else
    match fields.lookup (scriptString "value") with
    | some value => (cloneInlineJson value).map .inline
    | none => .error .contents

def parseStoredExecutionValue (value : ProgramValue Number) :
    Except StoredValueRefusal (StoredExecutionValue Number) := do
  let input ← readInput value
  let fields ← ownDataRecord input 2
  match fields.lookup (scriptString "kind") with
  | some (.string kind) =>
      if kind == scriptString "artifact" then parseArtifact fields
      else if kind == scriptString "inline" then parseInline fields
      else .error .contents
  | _ => .error .contents

end

/-!
## Writing a stored value
-/

inductive KeyOrder where
  | asWritten
  | canonical
deriving DecidableEq, Repr

inductive SerializeFrame (Number : Type) where
  | value (value : BoundedJsonValue Number)
  | token (token : List Char)

section

variable {Number : Type}

def itemTokens : List (BoundedJsonValue Number) -> List (SerializeFrame Number)
  | [] => []
  | [item] => [.value item]
  | item :: rest => .value item :: .token [','] :: itemTokens rest

def memberTokens : List (ScriptString × BoundedJsonValue Number) -> List (SerializeFrame Number)
  | [] => []
  | [(key, value)] => [.token (quoteText key), .token [':'], .value value]
  | (key, value) :: rest =>
      .token (quoteText key) :: .token [':'] :: .value value :: .token [','] :: memberTokens rest

variable [ScriptNumber Number]

def serializeFrame (order : KeyOrder) (frame : SerializeFrame Number) (chunks : List Char) :
    Except StoredValueRefusal (List (SerializeFrame Number) × List Char) :=
  match frame with
  | .token token => .ok ([], chunks ++ token)
  | .value (.array items) =>
      .ok (.token ['['] :: (itemTokens items ++ [.token [']']]), chunks)
  | .value (.object members) =>
      let keys := orderedKeys (order == .canonical) members
      .ok (.token ['\x7b'] :: (memberTokens keys ++ [.token ['\x7d']]), chunks)
  | .value scalar => .ok ([], chunks ++ stringify scalar)

end

section

variable {Number : Type}

mutual

/-- The number of frames that are taken for a value. -/
def frameCount : BoundedJsonValue Number -> Nat
  | .array items => 3 + itemFrames items
  | .object members => 3 + memberFrames members
  | _ => 1

def itemFrames : List (BoundedJsonValue Number) -> Nat
  | [] => 0
  | item :: rest => frameCount item + 1 + itemFrames rest

def memberFrames : List (ScriptString × BoundedJsonValue Number) -> Nat
  | [] => 0
  | (_, value) :: rest => frameCount value + 3 + memberFrames rest

end

def SerializeFrame.weight : SerializeFrame Number -> Nat
  | .value tree => frameCount tree
  | .token _ => 1

theorem weight_itemTokens (items : List (BoundedJsonValue Number)) :
    ((itemTokens items).map SerializeFrame.weight).sum ≤ itemFrames items := by
  induction items with
  | nil => exact Nat.le_refl _
  | cons item rest ih =>
      cases rest with
      | nil =>
          show frameCount item + 0 ≤ frameCount item + 1 + 0
          omega
      | cons next rest =>
          show frameCount item + (1 + ((itemTokens (next :: rest)).map SerializeFrame.weight).sum) ≤
            frameCount item + 1 + itemFrames (next :: rest)
          omega

theorem weight_memberTokens (members : List (ScriptString × BoundedJsonValue Number)) :
    ((memberTokens members).map SerializeFrame.weight).sum ≤ memberFrames members := by
  induction members with
  | nil => exact Nat.le_refl _
  | cons member rest ih =>
      rcases member with ⟨key, value⟩
      cases rest with
      | nil =>
          show 1 + (1 + (frameCount value + 0)) ≤ frameCount value + 3 + 0
          omega
      | cons next rest =>
          show 1 + (1 + (frameCount value +
            (1 + ((memberTokens (next :: rest)).map SerializeFrame.weight).sum))) ≤
              frameCount value + 3 + memberFrames (next :: rest)
          omega

theorem memberFrames_eq_sum (members : List (ScriptString × BoundedJsonValue Number)) :
    memberFrames members = (members.map fun member => frameCount member.snd + 3).sum := by
  induction members with
  | nil => rfl
  | cons member rest ih => rw [memberFrames, ih, List.map_cons, List.sum_cons]

theorem memberFrames_orderedKeys (sortKeys : Bool)
    (members : List (ScriptString × BoundedJsonValue Number)) :
    memberFrames (orderedKeys sortKeys members) = memberFrames members := by
  rw [memberFrames_eq_sum, memberFrames_eq_sum]
  exact ((perm_orderedKeys sortKeys members).map _).sum_eq

variable [ScriptNumber Number]

def serializeMachine (Number : Type) [ScriptNumber Number] (order : KeyOrder) :
    StackMachine (SerializeFrame Number) (List Char) StoredValueRefusal where
  take := serializeFrame order
  weight := SerializeFrame.weight
  lighter := by
    intro frame chunks pushed next h
    cases frame with
    | token token =>
        cases h
        exact Nat.one_pos
    | value value =>
        cases value with
        | array items =>
            cases h
            have hitems := weight_itemTokens items
            rw [List.map_cons, List.map_append, List.sum_cons, List.sum_append]
            show 1 + (_ + 1) < 3 + itemFrames items
            omega
        | object members =>
            cases h
            have hmembers := weight_memberTokens (orderedKeys (order == .canonical) members)
            rw [memberFrames_orderedKeys] at hmembers
            rw [List.map_cons, List.map_append, List.sum_cons, List.sum_append]
            show 1 + (_ + 1) < 3 + memberFrames members
            omega
        | null =>
            cases h
            exact Nat.one_pos
        | bool value =>
            cases h
            exact Nat.one_pos
        | number value =>
            cases h
            exact Nat.one_pos
        | string text =>
            cases h
            exact Nat.one_pos

/-- Stored values keep the key order they were written with; comparisons use the sorted text. -/
def serializeJson (value : BoundedJsonValue Number) (order : KeyOrder) :
    Except StoredValueRefusal (List Char) :=
  (serializeMachine Number order).run [.value value] []

def storedValueJson (parsed : StoredExecutionValue Number) (order : KeyOrder) :
    Except StoredValueRefusal (List Char) :=
  match parsed with
  | .artifact artifactId =>
      .ok ("\x7b\"artifactId\":".toList ++ quoteText artifactId ++
        ",\"kind\":\"artifact\"\x7d".toList)
  | .inline value => do
      let text ← serializeJson value order
      return "\x7b\"kind\":\"inline\",\"value\":".toList ++ text ++ "\x7d".toList

def prepareStoredExecutionValue (value : ProgramValue Number) :
    Except StoredValueRefusal (StoredExecutionValue Number × List Char) := do
  let parsed ← parseStoredExecutionValue value
  let json ← storedValueJson parsed .asWritten
  return (parsed, json)

def isNull : ProgramValue Number -> Bool
  | .null => true
  | _ => false

def storedExecutionValuesEqual (left right : ProgramValue Number) :
    Except StoredValueRefusal Bool :=
  if isNull left || isNull right then .ok (isNull left && isNull right)
  else do
    let leftParsed ← parseStoredExecutionValue left
    let leftJson ← storedValueJson leftParsed .canonical
    let rightParsed ← parseStoredExecutionValue right
    let rightJson ← storedValueJson rightParsed .canonical
    return leftJson == rightJson

end

end StoredValues
end Pertexo
