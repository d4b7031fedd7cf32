import Pertexo.Portability.GraphParsing
import Pertexo.Portability.Projection

/-!
# Canonical texts of manifests

## Parts of an admitted document
-/

namespace Pertexo
namespace Portability

open Library
open Values

section

variable {Number : Type} [GraphNumber Number] {limits : AdmissionLimits}
variable {allowNonFiniteNumbers : Bool}

theorem addBytes_eq_ok_iff {bytes more counted : Nat} :
    addBytes limits bytes more = .ok counted ↔
      bytes + more ≤ limits.graphBytes ∧ counted = bytes + more := by
  rw [addBytes]
  split
  · next hover =>
    constructor
    · intro h
      cases h
    · intro h
      exact absurd h.left (Nat.not_le.mpr hover)
  · next hfits =>
    rw [Except.ok.injEq]
    constructor
    · intro h
      exact ⟨Nat.not_lt.mp hfits, h.symm⟩
    · intro h
      exact h.right.symm

theorem exists_addBytes_of_le {bytes bytes' more counted : Nat}
    (h : addBytes limits bytes more = .ok counted) (hle : bytes' ≤ bytes) :
    exists counted', addBytes limits bytes' more = .ok counted' ∧ counted' ≤ counted := by
  rcases addBytes_eq_ok_iff.mp h with ⟨hfits, hcounted⟩
  have hless : bytes' + more ≤ bytes + more := Nat.add_le_add_right hle more
  exact ⟨bytes' + more, addBytes_eq_ok_iff.mpr ⟨Nat.le_trans hless hfits, rfl⟩, hcounted ▸ hless⟩

mutual

/-- A part of a document is admitted when it stands no deeper and after no more bytes. -/
theorem exists_inspectValue_of_le (value : GraphValue Number) (path' : ScriptString)
    {path : ScriptString} {depth depth' bytes bytes' counted : Nat} (hdepth : depth' ≤ depth)
    (hbytes : bytes' ≤ bytes)
    (h : inspectValue limits allowNonFiniteNumbers value path depth bytes = .ok counted) :
    exists counted',
      inspectValue limits allowNonFiniteNumbers value path' depth' bytes' = .ok counted' ∧
        counted' ≤ counted := by
  match value with
  | .null =>
      rw [inspectValue] at h ⊢
      split at h
      · cases h
      · next hlevel =>
        rw [if_neg (by omega)]
        exact exists_addBytes_of_le h hbytes
  | .bool value =>
      rw [inspectValue] at h ⊢
      split at h
      · cases h
      · next hlevel =>
        rw [if_neg (by omega)]
        exact exists_addBytes_of_le h hbytes
  | .string text =>
      rw [inspectValue] at h ⊢
      split at h
      · cases h
      · next hlevel =>
        rw [if_neg (by omega)]
        exact exists_addBytes_of_le h hbytes
  | .number value =>
      rw [inspectValue] at h ⊢
      split at h
      · cases h
      · next hlevel =>
        rw [if_neg (by omega)]
        split at h
        · cases h
        · next hnumber =>
          rw [if_neg hnumber]
          exact exists_addBytes_of_le h hbytes
  | .array items =>
      rw [inspectValue] at h ⊢
      split at h
      · cases h
      · next hlevel =>
        rw [if_neg (by omega)]
        rcases exists_of_bind_eq_ok h with ⟨before, hbefore, hitems⟩
        rcases exists_addBytes_of_le hbefore hbytes with ⟨before', hbefore', hle⟩
        rw [hbefore']
        exact exists_inspectItems_of_le items path' 0 (Nat.add_le_add_right hdepth 1) hle hitems
  | .object members =>
      rw [inspectValue] at h ⊢
      split at h
      · cases h
      · next hlevel =>
        rw [if_neg (by omega)]
        rcases exists_of_bind_eq_ok h with ⟨before, hbefore, hmembers⟩
        rcases exists_addBytes_of_le hbefore hbytes with ⟨before', hbefore', hle⟩
        rw [hbefore']
        exact exists_inspectMembers_of_le members path' (Nat.add_le_add_right hdepth 1) hle hmembers

theorem exists_inspectItems_of_le (items : List (GraphValue Number)) (path' : ScriptString)
    (index' : Nat) {path : ScriptString} {index depth depth' bytes bytes' counted : Nat}
    (hdepth : depth' ≤ depth)
    (hbytes : bytes' ≤ bytes)
    (h : inspectItems limits allowNonFiniteNumbers items path index depth bytes = .ok counted) :
    exists counted',
      inspectItems limits allowNonFiniteNumbers items path' index' depth' bytes' = .ok counted' ∧
        counted' ≤ counted := by
  match items with
  | [] =>
      rw [inspectItems] at h ⊢
      cases h
      exact ⟨bytes', rfl, hbytes⟩
  | item :: rest =>
      rw [inspectItems] at h ⊢
      rcases exists_of_bind_eq_ok h with ⟨before, hbefore, hrest⟩
      rcases exists_inspectValue_of_le item (itemPath path' index') hdepth hbytes hbefore
        with ⟨before', hbefore', hle⟩
      rw [hbefore']
      exact exists_inspectItems_of_le rest path' (index' + 1) hdepth hle hrest

theorem exists_inspectMembers_of_le (members : GraphMembers Number) (path' : ScriptString)
    {path : ScriptString} {depth depth' bytes bytes' counted : Nat} (hdepth : depth' ≤ depth)
    (hbytes : bytes' ≤ bytes)
    (h : inspectMembers limits allowNonFiniteNumbers members path depth bytes = .ok counted) :
    exists counted',
      inspectMembers limits allowNonFiniteNumbers members path' depth' bytes' = .ok counted' ∧
        counted' ≤ counted := by
  match members with
  | [] =>
      rw [inspectMembers] at h ⊢
      cases h
      exact ⟨bytes', rfl, hbytes⟩
  | (name, value) :: rest =>
      rw [inspectMembers] at h ⊢
      rcases exists_of_bind_eq_ok h with ⟨before, hbefore, hrest⟩
      rcases exists_inspectValue_of_le value (memberPath path' name) hdepth hbytes hbefore
        with ⟨before', hbefore', hle⟩
      rw [hbefore']
      exact exists_inspectMembers_of_le rest path' hdepth hle hrest

end

mutual

theorem isFiniteValue_of_inspectValue (value : GraphValue Number) {path : ScriptString}
    {depth bytes counted : Nat}
    (h : inspectValue limits false value path depth bytes = .ok counted) :
    isFiniteValue value = true := by
  match value with
  | .null => rfl
  | .bool value => rfl
  | .string text => rfl
  | .number value =>
      rw [inspectValue] at h
      split at h
      · cases h
      · split at h
        · cases h
        · next hnumber =>
          rw [isFiniteValue]
          simpa using hnumber
  | .array items =>
      rw [inspectValue] at h
      split at h
      · cases h
      · rcases exists_of_bind_eq_ok h with ⟨before, _, hitems⟩
        exact areFiniteItems_of_inspectItems items hitems
  | .object members =>
      rw [inspectValue] at h
      split at h
      · cases h
      · rcases exists_of_bind_eq_ok h with ⟨before, _, hmembers⟩
        exact areFiniteMembers_of_inspectMembers members hmembers

theorem areFiniteItems_of_inspectItems (items : List (GraphValue Number)) {path : ScriptString}
    {index depth bytes counted : Nat}
    (h : inspectItems limits false items path index depth bytes = .ok counted) :
    areFiniteItems items = true := by
  match items with
  | [] => rfl
  | item :: rest =>
      rw [inspectItems] at h
      rcases exists_of_bind_eq_ok h with ⟨before, hbefore, hrest⟩
      rw [areFiniteItems, isFiniteValue_of_inspectValue item hbefore,
        areFiniteItems_of_inspectItems rest hrest]
      rfl

theorem areFiniteMembers_of_inspectMembers (members : GraphMembers Number) {path : ScriptString}
    {depth bytes counted : Nat}
    (h : inspectMembers limits false members path depth bytes = .ok counted) :
    areFiniteMembers members = true := by
  match members with
  | [] => rfl
  | (name, value) :: rest =>
      rw [inspectMembers] at h
      rcases exists_of_bind_eq_ok h with ⟨before, hbefore, hrest⟩
      rw [areFiniteMembers, isFiniteValue_of_inspectValue value hbefore,
        areFiniteMembers_of_inspectMembers rest hrest]
      rfl

end

theorem exists_inspectValue_of_mem {members : GraphMembers Number} {path : ScriptString}
    {depth bytes counted : Nat}
    (h : inspectMembers limits allowNonFiniteNumbers members path depth bytes = .ok counted)
    {entry : ScriptString × GraphValue Number} (hentry : entry ∈ members) :
    exists path' bytes' counted',
      inspectValue limits allowNonFiniteNumbers entry.snd path' depth bytes' = .ok counted' := by
  induction members generalizing bytes with
  | nil => cases hentry
  | cons first rest ih =>
      rw [inspectMembers] at h
      rcases exists_of_bind_eq_ok h with ⟨before, hbefore, hrest⟩
      cases List.mem_cons.mp hentry with
      | inl hfirst =>
          rw [hfirst]
          exact ⟨_, _, _, hbefore⟩
      | inr hlater => exact ih hrest hlater

theorem portableSnapshot_of_mem {members : GraphMembers Number} {snapshot : GraphValue Number}
    (h : portableSnapshot (.object members) = .ok snapshot)
    {entry : ScriptString × GraphValue Number} (hentry : entry ∈ members) :
    portableSnapshot entry.snd = .ok entry.snd := by
  rw [portableSnapshot] at h ⊢
  split at h
  · cases h
  · next counted hwhole =>
    rw [inspectJsonDocument, inspectValue] at hwhole
    split at hwhole
    · cases hwhole
    · rcases exists_of_bind_eq_ok hwhole with ⟨before, _, hmembers⟩
      rcases exists_inspectValue_of_mem hmembers hentry with ⟨path, bytes, counted, hpart⟩
      have hlevel : 1 ≤ 1 + 1 := by decide
      rcases exists_inspectValue_of_le entry.snd rootPath hlevel (Nat.zero_le bytes) hpart
        with ⟨counted', hroot, _⟩
      rw [inspectJsonDocument, hroot]

theorem eq_of_portableSnapshot {value snapshot : GraphValue Number}
    (h : portableSnapshot value = .ok snapshot) : snapshot = value := by
  rw [portableSnapshot] at h
  split at h
  · cases h
  · cases h
    rfl

theorem isFiniteValue_of_portableSnapshot {value snapshot : GraphValue Number}
    (h : portableSnapshot value = .ok snapshot) : isFiniteValue value = true := by
  rw [portableSnapshot] at h
  split at h
  · cases h
  · next counted hwhole => exact isFiniteValue_of_inspectValue value hwhole

end

/-!
## Canonical texts tell requirements and slots apart
-/

section

variable {Number : Type} [GraphNumber Number]

def plainNumber : NumberValue Number -> Number
  | .finite value => value
  | _ => ScriptNumber.zero

theorem finite_plainNumber {value : NumberValue Number} (h : isPositiveInteger value = true) :
    NumberValue.finite (plainNumber value) = value := by
  cases value with
  | finite n => rfl
  | negativeZero => cases h
  | notFinite => cases h

/-!
The members of a canonical text stand in the order of their keys.
-/

def DefinitionRequirement.sorted (requirement : DefinitionRequirement Number) :
    BoundedJsonValue Number :=
  .object [(scriptString "configVersion", .number (plainNumber requirement.configVersion)),
    (scriptString "key", .string requirement.key),
    (scriptString "version", .number (plainNumber requirement.version))]

def sortedRequirements (definitions : List (DefinitionRequirement Number)) :
    BoundedJsonValue Number :=
  .object [(scriptString "definitions", .array (definitions.map DefinitionRequirement.sorted))]

def PortableConnectionSlot.sorted (slot : PortableConnectionSlot) : BoundedJsonValue Number :=
  .object [(scriptString "authType", .string slot.authType),
    (scriptString "nodeId", .string slot.nodeId),
    (scriptString "providerKey", .string slot.providerKey),
    (scriptString "slot", .string slot.slot)]

theorem DefinitionRequirement.parts_of_isValid {requirement : DefinitionRequirement Number}
    (h : requirement.isValid = true) :
    NumberValue.finite (plainNumber requirement.version) = requirement.version ∧
      NumberValue.finite (plainNumber requirement.configVersion) = requirement.configVersion := by
  simp only [DefinitionRequirement.isValid, Bool.and_eq_true] at h
  exact ⟨finite_plainNumber h.left.right, finite_plainNumber h.right⟩

theorem DefinitionRequirement.sortedJson_eq {requirement : DefinitionRequirement Number}
    (h : requirement.isValid = true) :
    sortedJson requirement.json = stringify requirement.sorted := by
  have hparts := DefinitionRequirement.parts_of_isValid h
  have hversion : compareUnits (scriptString "version") (scriptString "configVersion") = .gt := by
    decide
  have hkey : compareUnits (scriptString "key") (scriptString "configVersion") = .gt := by
    decide
  have horder : compareUnits (scriptString "key") (scriptString "version") = .lt := by
    decide
  rw [DefinitionRequirement.json, ← hparts.left, ← hparts.right]
  simp [DefinitionRequirement.sorted, member, sortedJson, sortedMembers, sortWith,
    List.insertionSort, List.orderedInsert, hversion, hkey, horder, stringify, stringifyMembers,
    numberJson, plainNumber]

theorem PortableConnectionSlot.sortedJson_eq (slot : PortableConnectionSlot) :
    sortedJson (slot.json : GraphValue Number) =
      stringify (slot.sorted : BoundedJsonValue Number) := by
  have hprovider : compareUnits (scriptString "providerKey") (scriptString "authType") = .gt := by
    decide
  have hslot : compareUnits (scriptString "slot") (scriptString "authType") = .gt := by
    decide
  have hlast : compareUnits (scriptString "slot") (scriptString "providerKey") = .gt := by
    decide
  have hnode : compareUnits (scriptString "nodeId") (scriptString "authType") = .gt := by
    decide
  have hbefore : compareUnits (scriptString "nodeId") (scriptString "providerKey") = .lt := by
    decide
  simp [PortableConnectionSlot.json, PortableConnectionSlot.sorted, member, sortedJson,
    sortedMembers, sortWith, List.insertionSort, List.orderedInsert, hprovider, hslot, hlast, hnode,
    hbefore, stringify, stringifyMembers]

theorem sortedItems_eq_map (items : List (GraphValue Number)) :
    sortedItems items = items.map sortedJson := by
  induction items with
  | nil => rfl
  | cons item rest ih => rw [sortedItems, ih, List.map_cons]

theorem sortedJson_requirements {definitions : List (DefinitionRequirement Number)}
    (h : definitions.all DefinitionRequirement.isValid = true) :
    sortedJson (requirementsJson definitions) = stringify (sortedRequirements definitions) := by
  have hitems : (definitions.map DefinitionRequirement.json).map sortedJson =
      (definitions.map DefinitionRequirement.sorted).map stringify := by
    rw [List.map_map, List.map_map]
    apply List.map_congr_left
    intro requirement hrequirement
    exact DefinitionRequirement.sortedJson_eq (List.all_eq_true.mp h requirement hrequirement)
  simp [requirementsJson, sortedRequirements, member, sortedJson, sortedMembers, sortWith,
    sortedItems_eq_map, stringify, stringifyMembers, stringifyItems_eq_map, hitems,
    -List.map_map]

theorem sortedJson_connectionSlots (slots : List PortableConnectionSlot) :
    sortedJson (connectionSlotsJson slots : GraphValue Number) =
      stringify (.array (slots.map PortableConnectionSlot.sorted) : BoundedJsonValue Number) := by
  have hitems : (slots.map PortableConnectionSlot.json).map
        (sortedJson : GraphValue Number -> List Char) =
      (slots.map PortableConnectionSlot.sorted).map
        (stringify : BoundedJsonValue Number -> List Char) := by
    rw [List.map_map, List.map_map]
    apply List.map_congr_left
    intro slot _
    exact PortableConnectionSlot.sortedJson_eq slot
  rw [connectionSlotsJson, sortedJson, stringify, sortedItems_eq_map, stringifyItems_eq_map, hitems]

theorem DefinitionRequirement.ordered_sorted (requirement : DefinitionRequirement Number) :
    requirement.sorted.Ordered := by
  have hfirst : comesBefore (scriptString "configVersion") (scriptString "key") = true := by
    decide
  have hlast : comesBefore (scriptString "configVersion") (scriptString "version") = true := by
    decide
  have hkey : comesBefore (scriptString "key") (scriptString "version") = true := by
    decide
  simp [DefinitionRequirement.sorted, BoundedJsonValue.Ordered, OrderedMembers, OwnOrder, hfirst,
    hlast, hkey]

omit [GraphNumber Number] in
theorem PortableConnectionSlot.ordered_sorted (slot : PortableConnectionSlot) :
    (slot.sorted : BoundedJsonValue Number).Ordered := by
  have hauth : [scriptString "nodeId", scriptString "providerKey", scriptString "slot"].all
      (comesBefore (scriptString "authType")) = true := by
    decide
  have hnode : [scriptString "providerKey", scriptString "slot"].all
      (comesBefore (scriptString "nodeId")) = true := by
    decide
  have hprovider : comesBefore (scriptString "providerKey") (scriptString "slot") = true := by
    decide
  simp only [List.all_cons, List.all_nil, Bool.and_true, Bool.and_eq_true] at hauth hnode
  simp [PortableConnectionSlot.sorted, BoundedJsonValue.Ordered, OrderedMembers, OwnOrder, hauth,
    hnode, hprovider]

/-- Values in the order of own keys with one text are the same script value. -/
theorem script_eq_of_stringify {left right : BoundedJsonValue Number} (hleft : left.Ordered)
    (hright : right.Ordered) (h : stringify left = stringify right) :
    left.script = right.script := by
  have hparsed := parseJson_stringify hleft
  rw [h, parseJson_stringify hright] at hparsed
  exact (Option.some.inj hparsed).symm

omit [GraphNumber Number] in
theorem scriptItems_eq_map (items : List (BoundedJsonValue Number)) :
    scriptItems items = items.map fun item => .data item.script := by
  induction items with
  | nil => rfl
  | cons item rest ih => rw [scriptItems, ih, List.map_cons]

theorem DefinitionRequirement.eq_of_script {left right : DefinitionRequirement Number}
    (hleft : left.isValid = true) (hright : right.isValid = true)
    (h : left.sorted.script = right.sorted.script) : left = right := by
  have hleftParts := DefinitionRequirement.parts_of_isValid hleft
  have hrightParts := DefinitionRequirement.parts_of_isValid hright
  simp [DefinitionRequirement.sorted, BoundedJsonValue.script, plainObject, scriptMembers] at h
  have hversion : left.version = right.version := by
    rw [← hleftParts.left, ← hrightParts.left, h.right.right]
  have hconfig : left.configVersion = right.configVersion := by
    rw [← hleftParts.right, ← hrightParts.right, h.left]
  cases left
  cases right
  rw [DefinitionRequirement.mk.injEq]
  exact ⟨h.right.left, hversion, hconfig⟩

omit [GraphNumber Number] in
theorem PortableConnectionSlot.eq_of_script {left right : PortableConnectionSlot}
    (h : (left.sorted : BoundedJsonValue Number).script = right.sorted.script) : left = right := by
  simp [PortableConnectionSlot.sorted, BoundedJsonValue.script, plainObject, scriptMembers] at h
  cases left
  cases right
  rw [PortableConnectionSlot.mk.injEq]
  exact ⟨h.right.left, h.right.right.right, h.right.right.left, h.left⟩

theorem requirements_eq_of_sortedJson {left right : List (DefinitionRequirement Number)}
    (hleft : left.all DefinitionRequirement.isValid = true)
    (hright : right.all DefinitionRequirement.isValid = true)
    (h : sortedJson (requirementsJson left) = sortedJson (requirementsJson right)) :
    left = right := by
  have hordered : forall definitions : List (DefinitionRequirement Number),
      (sortedRequirements definitions).Ordered := by
    intro definitions
    have hitems : OrderedItems (definitions.map DefinitionRequirement.sorted) := by
      rw [orderedItems_iff]
      intro item hitem
      rcases List.mem_map.mp hitem with ⟨requirement, _, hrequirement⟩
      rw [← hrequirement]
      exact requirement.ordered_sorted
    simp [sortedRequirements, BoundedJsonValue.Ordered, OrderedMembers, OwnOrder, hitems]
  rw [sortedJson_requirements hleft, sortedJson_requirements hright] at h
  have hscript := script_eq_of_stringify (hordered left) (hordered right) h
  simp only [sortedRequirements, BoundedJsonValue.script, plainObject, plainArray, scriptMembers,
    scriptItems_eq_map, List.map_map, ScriptValue.object.injEq, List.cons.injEq, Prod.mk.injEq,
    ScriptSlot.data.injEq, ScriptValue.array.injEq, true_and, and_true] at hscript
  clear h
  induction left generalizing right with
  | nil =>
      cases right with
      | nil => rfl
      | cons first rest => cases hscript
  | cons first rest ih =>
      cases right with
      | nil => cases hscript
      | cons other later =>
          rw [List.all_cons, Bool.and_eq_true] at hleft hright
          rw [List.map_cons, List.map_cons, List.cons.injEq] at hscript
          have hfirst := DefinitionRequirement.eq_of_script hleft.left hright.left
            (ScriptSlot.data.inj hscript.left)
          rw [hfirst, ih hleft.right hright.right hscript.right]

theorem connectionSlots_eq_of_sortedJson {left right : List PortableConnectionSlot}
    (h : sortedJson (connectionSlotsJson left : GraphValue Number) =
      sortedJson (connectionSlotsJson right : GraphValue Number)) : left = right := by
  have hordered : forall slots : List PortableConnectionSlot,
      (BoundedJsonValue.array (slots.map PortableConnectionSlot.sorted) :
        BoundedJsonValue Number).Ordered := by
    intro slots
    show OrderedItems _
    rw [orderedItems_iff]
    intro item hitem
    rcases List.mem_map.mp hitem with ⟨slot, _, hslot⟩
    rw [← hslot]
    exact slot.ordered_sorted
  rw [sortedJson_connectionSlots, sortedJson_connectionSlots] at h
  have hscript := script_eq_of_stringify (hordered left) (hordered right) h
  simp only [BoundedJsonValue.script, plainArray, scriptItems_eq_map, List.map_map,
    ScriptValue.array.injEq, true_and] at hscript
  exact List.map_injective_iff.mpr
    (fun a b hab => PortableConnectionSlot.eq_of_script (ScriptSlot.data.inj hab)) hscript

end

end Portability
end Pertexo
