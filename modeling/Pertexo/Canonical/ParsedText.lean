import Pertexo.Canonical.Completeness
import Pertexo.Values.JsonText

/-!
# Canonical text

## Values of a program and parsed values

Parsing a text makes new arrays and objects. What they hold does not depend on
their identities.
-/

namespace Pertexo
namespace Canonical

open Library
open Values

section

variable {Number : Type}

mutual

/-- The value without the identities of its arrays and objects. -/
def HeapValue.contents : HeapValue Number -> ScriptValue Number
  | .null => .null
  | .bool value => .bool value
  | .number value => .number value
  | .string text => .string text
  | .unsupported _ => .other
  | .array _ hasSymbols otherKeys items => .array hasSymbols otherKeys (itemContents items)
  | .object _ isPlain hasSymbols members => .object isPlain hasSymbols (memberContents members)

def itemContents : List (ScriptSlot (HeapValue Number)) -> List (ScriptSlot (ScriptValue Number))
  | [] => []
  | .hole :: rest => .hole :: itemContents rest
  | .accessor :: rest => .accessor :: itemContents rest
  | .data item :: rest => .data item.contents :: itemContents rest

def memberContents : List (ScriptString × ScriptSlot (HeapValue Number)) ->
    List (ScriptString × ScriptSlot (ScriptValue Number))
  | [] => []
  | (key, .hole) :: rest => (key, .hole) :: memberContents rest
  | (key, .accessor) :: rest => (key, .accessor) :: memberContents rest
  | (key, .data value) :: rest => (key, .data value.contents) :: memberContents rest

end

mutual

/-- JSON data laid out in memory, with the depth of each array and object as its identity. -/
def stored (depth : Nat) : BoundedJsonValue Number -> HeapValue Number
  | .null => .null
  | .bool value => .bool value
  | .number value => .number (.finite value)
  | .string text => .string text
  | .array items => .array depth false 0 (storedItems (depth + 1) items)
  | .object members => .object depth true false (storedMembers (depth + 1) members)

def storedItems (depth : Nat) :
    List (BoundedJsonValue Number) -> List (ScriptSlot (HeapValue Number))
  | [] => []
  | item :: rest => .data (stored depth item) :: storedItems depth rest

def storedMembers (depth : Nat) : List (ScriptString × BoundedJsonValue Number) ->
    List (ScriptString × ScriptSlot (HeapValue Number))
  | [] => []
  | (key, value) :: rest => (key, .data (stored depth value)) :: storedMembers depth rest

end

mutual

theorem contents_stored (depth : Nat) :
    forall value : BoundedJsonValue Number, (stored depth value).contents = value.script
  | .null => rfl
  | .bool _ => rfl
  | .number _ => rfl
  | .string _ => rfl
  | .array items => congrArg (ScriptValue.array false 0) (contents_storedItems (depth + 1) items)
  | .object members =>
      congrArg (ScriptValue.object true false) (contents_storedMembers (depth + 1) members)

theorem contents_storedItems (depth : Nat) :
    forall items : List (BoundedJsonValue Number),
      itemContents (storedItems depth items) = scriptItems items
  | [] => rfl
  | item :: rest => by
      rw [storedItems, itemContents, scriptItems, contents_stored depth item,
        contents_storedItems depth rest]

theorem contents_storedMembers (depth : Nat) :
    forall members : List (ScriptString × BoundedJsonValue Number),
      memberContents (storedMembers depth members) = scriptMembers members
  | [] => rfl
  | (_, value) :: rest => by
      rw [storedMembers, memberContents, scriptMembers, contents_stored depth value,
        contents_storedMembers depth rest]

end

theorem lt_succ_of_ancestors {depth : Nat} {ancestors : List Nat}
    (h : forall ancestor, ancestor ∈ ancestors -> ancestor < depth) :
    forall ancestor, ancestor ∈ depth :: ancestors -> ancestor < depth + 1 := by
  intro ancestor hancestor
  rcases List.mem_cons.mp hancestor with rfl | hold
  · exact Nat.lt_succ_self _
  · exact Nat.lt_succ_of_lt (h ancestor hold)

mutual

theorem isAcyclic_stored (depth : Nat) {ancestors : List Nat}
    (h : forall ancestor, ancestor ∈ ancestors -> ancestor < depth) :
    forall value : BoundedJsonValue Number, (stored depth value).IsAcyclic ancestors
  | .null => trivial
  | .bool _ => trivial
  | .number _ => trivial
  | .string _ => trivial
  | .array items =>
      ⟨fun hmem => Nat.lt_irrefl _ (h _ hmem),
        areAcyclic_storedItems (depth + 1) (lt_succ_of_ancestors h) items⟩
  | .object members =>
      ⟨fun hmem => Nat.lt_irrefl _ (h _ hmem),
        areAcyclic_storedMembers (depth + 1) (lt_succ_of_ancestors h) members⟩

theorem areAcyclic_storedItems (depth : Nat) {ancestors : List Nat}
    (h : forall ancestor, ancestor ∈ ancestors -> ancestor < depth) :
    forall items : List (BoundedJsonValue Number),
      AreAcyclicItems ancestors (storedItems depth items)
  | [] => trivial
  | item :: rest => ⟨isAcyclic_stored depth h item, areAcyclic_storedItems depth h rest⟩

theorem areAcyclic_storedMembers (depth : Nat) {ancestors : List Nat}
    (h : forall ancestor, ancestor ∈ ancestors -> ancestor < depth) :
    forall members : List (ScriptString × BoundedJsonValue Number),
      AreAcyclicMembers ancestors (storedMembers depth members)
  | [] => trivial
  | (_, value) :: rest => ⟨isAcyclic_stored depth h value, areAcyclic_storedMembers depth h rest⟩

end

variable [ScriptNumber Number]

mutual

theorem json?_of_contents :
    forall (value : HeapValue Number) (data : BoundedJsonValue Number),
      value.contents = data.script -> value.json? = some data
  | .null, data, h => by
      cases data <;> simp_all [HeapValue.contents, BoundedJsonValue.script, plainArray,
        plainObject, HeapValue.json?]
  | .bool _, data, h => by
      cases data <;> simp_all [HeapValue.contents, BoundedJsonValue.script, plainArray,
        plainObject, HeapValue.json?]
  | .string _, data, h => by
      cases data <;> simp_all [HeapValue.contents, BoundedJsonValue.script, plainArray,
        plainObject, HeapValue.json?]
  | .number (.finite _), data, h => by
      cases data <;> simp_all [HeapValue.contents, BoundedJsonValue.script, plainArray,
        plainObject, HeapValue.json?]
  | .number .negativeZero, data, h => by
      cases data <;> simp [HeapValue.contents, BoundedJsonValue.script, plainArray,
        plainObject] at h
  | .number .notFinite, data, h => by
      cases data <;> simp [HeapValue.contents, BoundedJsonValue.script, plainArray,
        plainObject] at h
  | .unsupported _, data, h => by
      cases data <;> simp_all [HeapValue.contents, BoundedJsonValue.script, plainArray,
        plainObject]
  | .array _ _ _ items, data, h => by
      cases data with
      | array others =>
          simp only [HeapValue.contents, BoundedJsonValue.script, plainArray,
            ScriptValue.array.injEq] at h
          rcases h with ⟨rfl, rfl, hitems⟩
          rw [HeapValue.json?, if_neg (by simp), jsonItems_of_contents items others hitems]
          rfl
      | _ => simp [HeapValue.contents, BoundedJsonValue.script, plainObject] at h
  | .object _ _ _ members, data, h => by
      cases data with
      | object others =>
          simp only [HeapValue.contents, BoundedJsonValue.script, plainObject,
            ScriptValue.object.injEq] at h
          rcases h with ⟨rfl, rfl, hmembers⟩
          rw [HeapValue.json?, if_neg (by simp), jsonMembers_of_contents members others hmembers]
          rfl
      | _ => simp [HeapValue.contents, BoundedJsonValue.script, plainArray] at h

theorem jsonItems_of_contents :
    forall (items : List (ScriptSlot (HeapValue Number))) (data : List (BoundedJsonValue Number)),
      itemContents items = scriptItems data -> jsonItems items = some data
  | [], [], _ => rfl
  | [], _ :: _, h => by simp [itemContents, scriptItems] at h
  | .hole :: _, data, h => by cases data <;> simp [itemContents, scriptItems] at h
  | .accessor :: _, data, h => by cases data <;> simp [itemContents, scriptItems] at h
  | .data _ :: _, [], h => by simp [itemContents, scriptItems] at h
  | .data item :: rest, first :: others, h => by
      simp only [itemContents, scriptItems, List.cons.injEq, ScriptSlot.data.injEq] at h
      rw [jsonItems, json?_of_contents item first h.left, jsonItems_of_contents rest others h.right]
      rfl

theorem jsonMembers_of_contents :
    forall (members : List (ScriptString × ScriptSlot (HeapValue Number)))
      (data : List (ScriptString × BoundedJsonValue Number)),
        memberContents members = scriptMembers data -> jsonMembers members = some data
  | [], [], _ => rfl
  | [], (_, _) :: _, h => by simp [memberContents, scriptMembers] at h
  | (_, .hole) :: _, data, h => by
      rcases data with _ | ⟨⟨_, _⟩, _⟩ <;> simp [memberContents, scriptMembers] at h
  | (_, .accessor) :: _, data, h => by
      rcases data with _ | ⟨⟨_, _⟩, _⟩ <;> simp [memberContents, scriptMembers] at h
  | (_, .data _) :: _, [], h => by simp [memberContents, scriptMembers] at h
  | (key, .data value) :: rest, (name, first) :: others, h => by
      simp only [memberContents, scriptMembers, List.cons.injEq, Prod.mk.injEq,
        ScriptSlot.data.injEq] at h
      rw [jsonMembers, json?_of_contents value first h.left.right,
        jsonMembers_of_contents rest others h.right, h.left.left]
      rfl

end

/-!
## Completeness
-/

/-- A value that holds JSON data within the depth limit; own keys stand in their order. -/
structure IsJsonValue (value : HeapValue Number) (data : BoundedJsonValue Number) : Prop where
  holds : value.json? = some data
  acyclic : value.IsAcyclic []
  ordered : data.Ordered
  fits : height data ≤ canonicalJsonMaxDepth

section

variable {value : HeapValue Number} {data : BoundedJsonValue Number}

theorem IsJsonValue.canonicalizeJson_eq (h : IsJsonValue value data) :
    canonicalizeJson value = Except.ok (rebuilt true data) := by
  apply normalize_spec (rootContext true) value h.holds h.acyclic
  show 0 + height data ≤ _
  rw [Nat.zero_add]
  exact h.fits

theorem IsJsonValue.normalizeJson_eq (h : IsJsonValue value data) :
    normalizeJson value = Except.ok data := by
  have hnormal := normalize_spec (rootContext false) value h.holds h.acyclic
    (by show 0 + height data ≤ _; rw [Nat.zero_add]; exact h.fits)
  rw [normalizeJson, hnormal]
  exact congrArg Except.ok (rebuilt_false data h.ordered)

theorem IsJsonValue.canonicalJson_eq (h : IsJsonValue value data) :
    canonicalJson value = Except.ok (stringify (rebuilt true data)) := by
  rw [canonicalJson, h.canonicalizeJson_eq]
  rfl

/-- A text that is written is read back, so it tells ordered values apart. -/
theorem stringify_injective {left right : BoundedJsonValue Number} (hleft : left.Ordered)
    (hright : right.Ordered) (h : stringify left = stringify right) : left = right := by
  have hparsed : some left.script = some right.script := by
    rw [← parseJson_stringify hleft, h, parseJson_stringify hright]
  exact script_injective left right (Option.some.inj hparsed)

theorem stringify_rebuilt_iff {other : BoundedJsonValue Number} (hdata : data.Ordered)
    (hother : other.Ordered) :
    stringify (rebuilt true data) = stringify (rebuilt true other) ↔ SameUpToOrder data other := by
  rw [sameUpToOrder_iff data other hdata hother]
  constructor
  · exact stringify_injective (ordered_rebuilt true data hdata) (ordered_rebuilt true other hother)
  · exact congrArg stringify

theorem IsJsonValue.canonicalJson_parsed (h : IsJsonValue value data) {parsed : HeapValue Number}
    (hparsed : parseJson (stringify (rebuilt true data)) = some parsed.contents)
    (hacyclic : parsed.IsAcyclic []) :
    canonicalJson parsed = Except.ok (stringify (rebuilt true data)) := by
  have hordered := ordered_rebuilt true data h.ordered
  rw [parseJson_stringify hordered] at hparsed
  have hjson : IsJsonValue parsed (rebuilt true data) :=
    { holds := json?_of_contents parsed _ (Option.some.inj hparsed).symm
      acyclic := hacyclic
      ordered := hordered
      fits := (height_rebuilt true data h.ordered).trans h.fits }
  rw [hjson.canonicalJson_eq, rebuilt_rebuilt true data h.ordered]

end

/--
The canonical texts of two values are equal exactly when the values are equal up
to the order of their keys; a canonical text is read back as a value with that
text, and the text with keys in their own order is of the same data.
-/
theorem canonicalJson_complete {value other : HeapValue Number}
    {data otherData : BoundedJsonValue Number} (h : IsJsonValue value data)
    (h' : IsJsonValue other otherData) :
    exists text otherText, canonicalJson value = Except.ok text ∧
      canonicalJson other = Except.ok otherText ∧
      (text = otherText ↔ SameUpToOrder data otherData) ∧
      (exists parsed : HeapValue Number,
        parseJson text = some parsed.contents ∧ parsed.IsAcyclic []) ∧
      (forall parsed : HeapValue Number, parseJson text = some parsed.contents ->
        parsed.IsAcyclic [] -> canonicalJson parsed = Except.ok text) ∧
      exists normal canonical : BoundedJsonValue Number,
        normalizedJson value = Except.ok (stringify normal) ∧
        canonicalJson value = Except.ok (stringify canonical) ∧ SameUpToOrder normal canonical := by
  have hordered := ordered_rebuilt true data h.ordered
  refine ⟨_, _, h.canonicalJson_eq, h'.canonicalJson_eq, ?_, ?_, ?_, ?_⟩
  · exact stringify_rebuilt_iff h.ordered h'.ordered
  · refine ⟨stored 0 (rebuilt true data), ?_, isAcyclic_stored 0 ?_ _⟩
    · rw [parseJson_stringify hordered, contents_stored]
    · intro ancestor hancestor
      cases hancestor
  · intro parsed hparsed hacyclic
    exact h.canonicalJson_parsed hparsed hacyclic
  · refine ⟨data, rebuilt true data, ?_, h.canonicalJson_eq, ?_⟩
    · rw [normalizedJson, h.normalizeJson_eq]
      rfl
    · rw [sameUpToOrder_iff _ _ h.ordered hordered, rebuilt_rebuilt true data h.ordered]

/-- Two objects with keys in different orders, one of them with a shared member. -/
def sharedMembers : HeapValue Nat :=
  let shared : HeapValue Nat :=
    .object 1 true false [(scriptString "7", .data (.number .negativeZero))]
  .object 0 true false [(scriptString "b", .data shared), (scriptString "a", .data shared)]

def ownMembers : HeapValue Nat :=
  let own (identity : Nat) : HeapValue Nat :=
    .object identity true false [(scriptString "7", .data (.number (.finite 0)))]
  .object 0 true false [(scriptString "a", .data (own 1)), (scriptString "b", .data (own 2))]

def memberData (first second : String) : BoundedJsonValue Nat :=
  .object
    [(scriptString first, .object [(scriptString "7", .number 0)]),
      (scriptString second, .object [(scriptString "7", .number 0)])]

theorem ordered_memberData {first second : String}
    (h : comesBefore (scriptString first) (scriptString second) = true) :
    (memberData first second).Ordered := by
  refine ⟨?_, ⟨List.pairwise_singleton _ _, trivial, trivial⟩,
    ⟨List.pairwise_singleton _ _, trivial, trivial⟩, trivial⟩
  apply List.pairwise_cons.mpr
  refine ⟨?_, List.pairwise_singleton _ _⟩
  intro member hmember
  rw [List.mem_singleton.mp hmember]
  exact h

theorem canonicalJson_complete_sample :
    exists text otherText, canonicalJson sharedMembers = Except.ok text ∧
      canonicalJson ownMembers = Except.ok otherText ∧
      (text = otherText ↔ SameUpToOrder (memberData "b" "a") (memberData "a" "b")) := by
  have hshared : IsJsonValue sharedMembers (memberData "b" "a") :=
    { holds := rfl
      acyclic := by simp [sharedMembers, HeapValue.IsAcyclic, AreAcyclicMembers]
      ordered := ordered_memberData (by decide)
      fits := by decide }
  have hown : IsJsonValue ownMembers (memberData "a" "b") :=
    { holds := rfl
      acyclic := by simp [ownMembers, HeapValue.IsAcyclic, AreAcyclicMembers]
      ordered := ordered_memberData (by decide)
      fits := by decide }
  rcases canonicalJson_complete hshared hown with ⟨text, otherText, htext, hother, hsame, _⟩
  exact ⟨text, otherText, htext, hother, hsame⟩

end

end Canonical
end Pertexo
