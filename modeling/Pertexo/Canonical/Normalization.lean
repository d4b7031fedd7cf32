import Mathlib.Data.List.Lex
import Pertexo.Library.Results
import Pertexo.Library.Sorting
import Pertexo.Values.JsonRoundTrip

/-!
# Canonical JSON

## Values of a program

A value in memory is a graph: an array or an object has an identity, and may
occur in several places. Walking it visits a tree, which ends where the identity
of an ancestor comes back. The members of an object are its own enumerable keys.
-/

namespace Pertexo
namespace Canonical

open Library
open Values

inductive HeapValue (Number : Type) where
  | null
  | bool (value : Bool)
  | number (value : NumberValue Number)
  | string (text : ScriptString)
  | unsupported (typeName : String)
  | array (identity : Nat) (hasSymbols : Bool) (otherKeys : Nat)
      (items : List (ScriptSlot (HeapValue Number)))
  | object (identity : Nat) (isPlain hasSymbols : Bool)
      (members : List (ScriptString × ScriptSlot (HeapValue Number)))

structure InvalidJsonValueError where
  path : ScriptString
  message : String
deriving DecidableEq, Repr

abbrev JsonResult := Except InvalidJsonValueError

def invalidJson (path : ScriptString) (message : String) : JsonResult α :=
  Except.error { path := path, message := message }

def canonicalJsonMaxDepth : Nat := 256

structure NormalizationContext where
  path : ScriptString
  ancestors : List Nat
  depth : Nat
  sortKeys : Bool

def NormalizationContext.item (context : NormalizationContext) (index : Nat) :
    NormalizationContext :=
  { context with
    path := context.path ++ scriptString ("[" ++ toString index ++ "]")
    depth := context.depth + 1 }

def NormalizationContext.member (context : NormalizationContext) (key : ScriptString) :
    NormalizationContext :=
  { context with
    path := context.path ++ scriptString "." ++ key
    depth := context.depth + 1 }

def NormalizationContext.enter (context : NormalizationContext) (identity : Nat) :
    NormalizationContext :=
  { context with ancestors := identity :: context.ancestors }

def unitValues (text : ScriptString) : List Nat :=
  text.map UInt16.toNat

def compareUnits (left right : ScriptString) : Ordering :=
  if unitValues left < unitValues right then Ordering.lt
  else if unitValues right < unitValues left then Ordering.gt
  else Ordering.eq

def orderedKeys (sortKeys : Bool) (members : List (ScriptString × α)) :
    List (ScriptString × α) :=
  if sortKeys then sortWith (fun left right => compareUnits left.fst right.fst) members
  else members

def definedItems (items : List (ScriptSlot α)) : Nat :=
  items.countP fun slot =>
    match slot with
    | .hole => false
    | _ => true

def setMember (result : List (ScriptString × α)) (member : ScriptString × JsonResult α) :
    JsonResult (List (ScriptString × α)) := do
  let value ← member.snd
  pure (defineProperty member.fst value result)

section

variable {Number : Type} [ScriptNumber Number]

mutual

def normalize (context : NormalizationContext) (value : HeapValue Number) :
    JsonResult (BoundedJsonValue Number) :=
  if canonicalJsonMaxDepth < context.depth then
    invalidJson context.path "JSON depth exceeds canonical limit"
  else
    match value with
    | .null => Except.ok .null
    | .bool value => Except.ok (.bool value)
    | .string text => Except.ok (.string text)
    | .number (.finite value) => Except.ok (.number value)
    | .number .negativeZero => Except.ok (.number ScriptNumber.zero)
    | .number .notFinite => invalidJson context.path "number must be finite"
    | .unsupported typeName => invalidJson context.path ("unsupported " ++ typeName)
    | .array identity hasSymbols otherKeys items =>
        if context.ancestors.contains identity then invalidJson context.path "cyclic value"
        else if hasSymbols then invalidJson context.path "symbol properties are not JSON"
        else if definedItems items + otherKeys + 1 != items.length + 1 then
          invalidJson context.path "array must contain only dense index properties"
        else (normalizeItems (context.enter identity) 0 items).map .array
    | .object identity isPlain hasSymbols members =>
        if context.ancestors.contains identity then invalidJson context.path "cyclic value"
        else if !isPlain then invalidJson context.path "object must be plain"
        else if hasSymbols then invalidJson context.path "symbol properties are not JSON"
        else
          ((orderedKeys context.sortKeys
            (normalizeMembers (context.enter identity) members)).foldlM setMember []).map .object

def normalizeItems (context : NormalizationContext) (index : Nat) :
    List (ScriptSlot (HeapValue Number)) -> JsonResult (List (BoundedJsonValue Number))
  | [] => Except.ok []
  | .hole :: _ => invalidJson (context.item index).path "sparse array"
  | .accessor :: _ => invalidJson (context.item index).path "accessors are not JSON"
  | .data item :: rest => do
      let first ← normalize (context.item index) item
      let others ← normalizeItems context (index + 1) rest
      pure (first :: others)

/-- The normal form of each member, to be read in the order of the keys. -/
def normalizeMembers (context : NormalizationContext) :
    List (ScriptString × ScriptSlot (HeapValue Number)) ->
      List (ScriptString × JsonResult (BoundedJsonValue Number))
  | [] => []
  | (key, .data value) :: rest =>
      (key, normalize (context.member key) value) :: normalizeMembers context rest
  | (key, _) :: rest =>
      (key, invalidJson (context.member key).path "accessors are not JSON") ::
        normalizeMembers context rest

end

def rootContext (sortKeys : Bool) : NormalizationContext :=
  { path := scriptString "$", ancestors := [], depth := 0, sortKeys := sortKeys }

/-- Validated JSON with sorted keys, for comparing and hashing. -/
def canonicalizeJson (value : HeapValue Number) : JsonResult (BoundedJsonValue Number) :=
  normalize (rootContext true) value

/-- Validated JSON that keeps its key order, for data people read. -/
def normalizeJson (value : HeapValue Number) : JsonResult (BoundedJsonValue Number) :=
  normalize (rootContext false) value

def canonicalJson (value : HeapValue Number) : JsonResult (List Char) :=
  (canonicalizeJson value).map stringify

def normalizedJson (value : HeapValue Number) : JsonResult (List Char) :=
  (normalizeJson value).map stringify

/-!
## The data of a value
-/

mutual

/-- The tree that a value stands for, as far as it holds nothing but JSON data. -/
def HeapValue.json? : HeapValue Number -> Option (BoundedJsonValue Number)
  | .null => some .null
  | .bool value => some (.bool value)
  | .number (.finite value) => some (.number value)
  | .number .negativeZero => some (.number ScriptNumber.zero)
  | .number .notFinite => none
  | .string text => some (.string text)
  | .unsupported _ => none
  | .array _ hasSymbols otherKeys items =>
      if hasSymbols || otherKeys != 0 then none else (jsonItems items).map .array
  | .object _ isPlain hasSymbols members =>
      if !isPlain || hasSymbols then none else (jsonMembers members).map .object

def jsonItems : List (ScriptSlot (HeapValue Number)) -> Option (List (BoundedJsonValue Number))
  | [] => some []
  | .data item :: rest => do
      let first ← item.json?
      let others ← jsonItems rest
      some (first :: others)
  | _ :: _ => none

def jsonMembers : List (ScriptString × ScriptSlot (HeapValue Number)) ->
    Option (List (ScriptString × BoundedJsonValue Number))
  | [] => some []
  | (key, .data value) :: rest => do
      let first ← value.json?
      let others ← jsonMembers rest
      some ((key, first) :: others)
  | _ :: _ => none

end

mutual

/-- No array and no object of the value is within itself. -/
def HeapValue.IsAcyclic (ancestors : List Nat) : HeapValue Number -> Prop
  | .array identity _ _ items =>
      identity ∉ ancestors ∧ AreAcyclicItems (identity :: ancestors) items
  | .object identity _ _ members =>
      identity ∉ ancestors ∧ AreAcyclicMembers (identity :: ancestors) members
  | _ => True

def AreAcyclicItems (ancestors : List Nat) : List (ScriptSlot (HeapValue Number)) -> Prop
  | [] => True
  | .data item :: rest => item.IsAcyclic ancestors ∧ AreAcyclicItems ancestors rest
  | _ :: rest => AreAcyclicItems ancestors rest

def AreAcyclicMembers (ancestors : List Nat) :
    List (ScriptString × ScriptSlot (HeapValue Number)) -> Prop
  | [] => True
  | (_, .data value) :: rest => value.IsAcyclic ancestors ∧ AreAcyclicMembers ancestors rest
  | _ :: rest => AreAcyclicMembers ancestors rest

end

end

section

variable {Number : Type}

mutual

/-- The levels of values below the value. -/
def height : BoundedJsonValue Number -> Nat
  | .array items => itemsHeight items
  | .object members => membersHeight members
  | _ => 0

def itemsHeight : List (BoundedJsonValue Number) -> Nat
  | [] => 0
  | item :: rest => max (height item + 1) (itemsHeight rest)

def membersHeight : List (ScriptString × BoundedJsonValue Number) -> Nat
  | [] => 0
  | (_, value) :: rest => max (height value + 1) (membersHeight rest)

end

mutual

/-- The same data, whatever the order of the keys at every depth. -/
def SameUpToOrder : BoundedJsonValue Number -> BoundedJsonValue Number -> Prop
  | .null, .null => True
  | .bool left, .bool right => left = right
  | .number left, .number right => left = right
  | .string left, .string right => left = right
  | .array items, .array others => SameItems items others
  | .object members, .object others =>
      (members.map Prod.fst).Perm (others.map Prod.fst) ∧ SameMembers members others
  | _, _ => False

def SameItems : List (BoundedJsonValue Number) -> List (BoundedJsonValue Number) -> Prop
  | [], [] => True
  | item :: rest, other :: others => SameUpToOrder item other ∧ SameItems rest others
  | _, _ => False

/-- Every member has a counterpart under the same key. -/
def SameMembers : List (ScriptString × BoundedJsonValue Number) ->
    List (ScriptString × BoundedJsonValue Number) -> Prop
  | [], _ => True
  | (key, value) :: rest, others =>
      (exists other, (key, other) ∈ others ∧ SameUpToOrder value other) ∧ SameMembers rest others

end

mutual

/-- The value with every object built up again, in the order of its sorted keys or its own. -/
def rebuilt (sortKeys : Bool) : BoundedJsonValue Number -> BoundedJsonValue Number
  | .array items => .array (rebuiltItems sortKeys items)
  | .object members =>
      .object ((orderedKeys sortKeys (rebuiltMembers sortKeys members)).foldl
        (fun result member => defineProperty member.fst member.snd result) [])
  | value => value

def rebuiltItems (sortKeys : Bool) :
    List (BoundedJsonValue Number) -> List (BoundedJsonValue Number)
  | [] => []
  | item :: rest => rebuilt sortKeys item :: rebuiltItems sortKeys rest

def rebuiltMembers (sortKeys : Bool) : List (ScriptString × BoundedJsonValue Number) ->
    List (ScriptString × BoundedJsonValue Number)
  | [] => []
  | (key, value) :: rest => (key, rebuilt sortKeys value) :: rebuiltMembers sortKeys rest

end

end

/-!
## Sorted keys
-/

theorem isLE_compareUnits_iff {left right : ScriptString} :
    (compareUnits left right).isLE = true ↔ unitValues left ≤ unitValues right := by
  unfold compareUnits
  split
  · next hlt => simp [le_of_lt hlt]
  · split
    · next hgt => simp [not_le_of_gt hgt]
    · next hge => simpa using hge

theorem unitValues_injective {left right : ScriptString} (h : unitValues left = unitValues right) :
    left = right :=
  List.map_injective_iff.mpr (fun _ _ => UInt16.toNat.inj) h

theorem comparesTotally_units : ComparesTotally compareUnits where
  total := by
    intro left right
    rw [isLE_compareUnits_iff, isLE_compareUnits_iff]
    exact le_total _ _
  trans := by
    intro first second third
    rw [isLE_compareUnits_iff, isLE_compareUnits_iff, isLE_compareUnits_iff]
    exact le_trans

theorem comparesTotally_keys :
    ComparesTotally fun left right : ScriptString × α => compareUnits left.fst right.fst :=
  comparesTotally_units.comap Prod.fst

theorem perm_orderedKeys (sortKeys : Bool) (members : List (ScriptString × α)) :
    (orderedKeys sortKeys members).Perm members := by
  cases sortKeys with
  | true => exact perm_sortWith _ members
  | false => exact List.Perm.refl members

theorem orderedKeys_eq_of_perm {members others : List (ScriptString × α)}
    (hperm : members.Perm others) (hnodup : (members.map Prod.fst).Nodup) :
    orderedKeys true members = orderedKeys true others := by
  apply comparesTotally_keys.sortWith_eq_of_perm hperm
  intro left hleft right hright hle hge
  rw [isLE_compareUnits_iff] at hle hge
  exact List.inj_on_of_nodup_map hnodup hleft hright
    (unitValues_injective (le_antisymm hle hge))

/-!
## Objects built up from their members
-/

def buildObject (members : List (ScriptString × α)) : List (ScriptString × α) :=
  members.foldl (fun result member => defineProperty member.fst member.snd result) []

theorem perm_defineProperty {key : ScriptString} {value : α} {members : List (ScriptString × α)}
    (h : key ∉ members.map Prod.fst) :
    (defineProperty key value members).Perm ((key, value) :: members) := by
  induction members with
  | nil => exact List.Perm.refl _
  | cons member rest ih =>
      obtain ⟨name, old⟩ := member
      rw [List.map_cons, List.mem_cons, not_or] at h
      rw [defineProperty, if_neg (by simpa using Ne.symm h.left)]
      split
      · exact ((ih h.right).cons _).trans (List.Perm.swap _ _ _)
      · exact List.Perm.refl _

theorem foldl_defineProperty_spec {members read : List (ScriptString × α)} (hread : OwnOrder read)
    (hnodup : ((read ++ members).map Prod.fst).Nodup) :
    OwnOrder (members.foldl
        (fun result member => defineProperty member.fst member.snd result) read) ∧
      (members.foldl (fun result member => defineProperty member.fst member.snd result)
        read).Perm (read ++ members) := by
  induction members generalizing read with
  | nil =>
      rw [List.append_nil]
      exact ⟨hread, List.Perm.refl _⟩
  | cons member rest ih =>
      have hfresh : member.fst ∉ read.map Prod.fst := by
        rw [List.map_append, List.nodup_append] at hnodup
        intro hmem
        exact hnodup.right.right _ hmem _ (List.mem_cons_self ..) rfl
      have hdefined : (defineProperty member.fst member.snd read).Perm (member :: read) :=
        perm_defineProperty hfresh
      have hperm : (defineProperty member.fst member.snd read ++ rest).Perm
          (read ++ member :: rest) :=
        (hdefined.append_right rest).trans List.perm_middle.symm
      have hnext : ((defineProperty member.fst member.snd read ++ rest).map Prod.fst).Nodup :=
        (hperm.map Prod.fst).nodup_iff.mpr hnodup
      rcases ih (ownOrder_defineProperty hread) hnext with ⟨horder, hrest⟩
      exact ⟨horder, hrest.trans hperm⟩

theorem ownOrder_buildObject {members : List (ScriptString × α)}
    (h : (members.map Prod.fst).Nodup) : OwnOrder (buildObject members) :=
  (foldl_defineProperty_spec List.Pairwise.nil h).left

theorem perm_buildObject {members : List (ScriptString × α)}
    (h : (members.map Prod.fst).Nodup) : (buildObject members).Perm members :=
  (foldl_defineProperty_spec List.Pairwise.nil h).right

theorem foldl_defineProperty_of_ownOrder {members read : List (ScriptString × α)}
    (h : OwnOrder (read ++ members)) :
    members.foldl (fun result member => defineProperty member.fst member.snd result) read =
      read ++ members := by
  induction members generalizing read with
  | nil => rw [List.foldl_nil, List.append_nil]
  | cons member rest ih =>
      have hsplit : read ++ member :: rest = read ++ [member] ++ rest := by simp
      rw [hsplit] at h ⊢
      have hfirst : OwnOrder (read ++ [member]) := h.sublist (List.sublist_append_left _ _)
      rw [List.foldl_cons, defineProperty_of_ownOrder hfirst, ih h]

/-- An object whose members are in own order is built up as it was. -/
theorem buildObject_of_ownOrder {members : List (ScriptString × α)} (h : OwnOrder members) :
    buildObject members = members :=
  foldl_defineProperty_of_ownOrder h

theorem nodup_of_ownOrder {members : List (ScriptString × α)} (h : OwnOrder members) :
    (members.map Prod.fst).Nodup :=
  List.pairwise_map.mpr (h.imp ne_of_comesBefore)

theorem ownOrder_keys {members : List (ScriptString × α)} {others : List (ScriptString × β)}
    (hkeys : others.map Prod.fst = members.map Prod.fst) (h : OwnOrder members) :
    OwnOrder others := by
  have hpairs : (others.map Prod.fst).Pairwise fun left right => comesBefore left right = true := by
    rw [hkeys]
    exact List.pairwise_map.mpr h
  exact List.pairwise_map.mp hpairs

end Canonical
end Pertexo
