import Pertexo.Library.Results
import Pertexo.Values.JsonRoundTrip

/-!
# Bounded JSON snapshots

A snapshot of an unknown value is taken in one walk, which stops at the first
thing that is not plain data or lies beyond a limit.
-/

namespace Pertexo
namespace Values

open Library

structure BoundedJsonLimits where
  bytes : Nat
  depth : Nat
  members : Nat
deriving DecidableEq, Repr

inductive BoundedJsonFailureReason where
  | byteLimit
  | depthLimit
  | memberLimit
  | accessors
  | arrayProperties
  | notPlain
  | repeatedReference
  | symbolProperties
  | notInspected
  | notJson
deriving DecidableEq, Repr

def BoundedJsonFailureReason.message : BoundedJsonFailureReason -> String
  | .byteLimit => "JSON byte limit exceeded"
  | .depthLimit => "JSON depth limit exceeded"
  | .memberLimit => "JSON member limit exceeded"
  | .accessors => "accessors are not JSON"
  | .arrayProperties => "array properties are not JSON"
  | .notPlain => "object must be plain"
  | .repeatedReference => "repeated object reference"
  | .symbolProperties => "symbol properties are not JSON"
  | .notInspected => "value could not be inspected safely"
  | .notJson => "value is not JSON"

def utf8ByteLength (text : List Char) : Nat :=
  (text.map Char.utf8Size).sum

/-!
## Inspection

The walk counts one member for every key of every array and object it visits.
Its snapshot takes each member with the key it has in the source.
-/

inductive JsonTarget (Number : Type) where
  | items (items : List (BoundedJsonValue Number))
  | members (members : List (ScriptString × BoundedJsonValue Number))

def JsonTarget.value : JsonTarget Number -> BoundedJsonValue Number
  | .items held => .array held
  | .members held => .object held

/-- The keys of an array are its indices in order, so that each child comes last. -/
def assignChild (target : JsonTarget Number) (key : ScriptString)
    (child : BoundedJsonValue Number) :
    JsonTarget Number :=
  match target with
  | .items held => .items (held ++ [child])
  | .members held => .members (defineProperty key child held)

structure JsonFrame (Number : Type) where
  target : JsonTarget Number
  slots : List (ScriptString × ScriptSlot (ScriptValue Number))

def ScriptSlot.isPresent : ScriptSlot α -> Bool
  | .hole => false
  | _ => true

def ScriptValue.isObject : ScriptValue Number -> Bool
  | .unreadable => true
  | .repeated => true
  | .array _ _ _ => true
  | .object _ _ _ => true
  | _ => false

section

variable {Number : Type}

def indexedSlots (items : List (ScriptSlot (ScriptValue Number))) :
    List (ScriptString × ScriptSlot (ScriptValue Number)) :=
  items.zipIdx.map fun (slot, index) => (scriptString (toString index), slot)

def inspectContainer (limits : BoundedJsonLimits) :
    ScriptValue Number -> Except BoundedJsonFailureReason (JsonFrame Number)
  | .array hasSymbols otherKeys items =>
      if items.length > limits.members then .error .memberLimit
      else if hasSymbols then .error .symbolProperties
      else if items.countP ScriptSlot.isPresent + otherKeys != items.length then
        .error .arrayProperties
      else .ok { target := .items [], slots := indexedSlots items }
  | .object isPlain hasSymbols members =>
      if !isPlain then .error .notPlain
      else if hasSymbols then .error .symbolProperties
      else .ok { target := .members [], slots := members }
  | .unreadable => .error .notInspected
  | .repeated => .error .repeatedReference
  | _ => .error .notJson

variable [ScriptNumber Number]

def primitiveJson : ScriptValue Number -> Option (BoundedJsonValue Number)
  | .null => some .null
  | .bool value => some (.bool value)
  | .string text => some (.string text)
  | .number (.finite value) => some (.number value)
  | .number .negativeZero => some (.number ScriptNumber.zero)
  | _ => none

/-- Visits one key. `nested` walks a child object, unless the child lies too deep. -/
def inspectChild (limits : BoundedJsonLimits)
    (nested : Option (ScriptValue Number -> Nat ->
      Except BoundedJsonFailureReason (BoundedJsonValue Number × Nat)))
    (state : JsonTarget Number × Nat) (child : ScriptString × ScriptSlot (ScriptValue Number)) :
    Except BoundedJsonFailureReason (JsonTarget Number × Nat) :=
  let members := state.snd + 1
  if members > limits.members then .error .memberLimit
  else
    match child.snd with
    | .hole => .error .accessors
    | .accessor => .error .accessors
    | .data value =>
        match primitiveJson value with
        | some scalar => .ok (assignChild state.fst child.fst scalar, members)
        | none =>
            if !value.isObject then .error .notJson
            else
              match nested with
              | none => .error .depthLimit
              | some inspect =>
                  (inspect value members).map fun result =>
                    (assignChild state.fst child.fst result.fst, result.snd)

def inspectFrame (limits : BoundedJsonLimits)
    (nested : Option (ScriptValue Number -> Nat ->
      Except BoundedJsonFailureReason (BoundedJsonValue Number × Nat)))
    (value : ScriptValue Number) (members : Nat) :
    Except BoundedJsonFailureReason (BoundedJsonValue Number × Nat) := do
  let frame ← inspectContainer limits value
  let (target, members) ← frame.slots.foldlM (inspectChild limits nested) (frame.target, members)
  return (target.value, members)

/-- Walks an object below which `levels` further levels are allowed. -/
def inspectObject (limits : BoundedJsonLimits) :
    Nat -> ScriptValue Number -> Nat ->
      Except BoundedJsonFailureReason (BoundedJsonValue Number × Nat)
  | 0 => inspectFrame limits none
  | levels + 1 => inspectFrame limits (some (inspectObject limits levels))

def boundedSnapshot (limits : BoundedJsonLimits) (snapshot : BoundedJsonValue Number) :
    Except BoundedJsonFailureReason (BoundedJsonValue Number) :=
  if utf8ByteLength (stringify snapshot) > limits.bytes then .error .byteLimit
  else .ok snapshot

def inspectBoundedJson (value : ScriptValue Number) (limits : BoundedJsonLimits) :
    Except BoundedJsonFailureReason (BoundedJsonValue Number) :=
  match primitiveJson value with
  | some primitive => boundedSnapshot limits primitive
  | none =>
      if !value.isObject then .error .notJson
      else do
        let result ← inspectObject limits (limits.depth - 1) value 0
        boundedSnapshot limits result.fst

def maxSafeInteger : Nat :=
  2 ^ 53 - 1

def BoundedJsonLimits.isValid (limits : BoundedJsonLimits) : Bool :=
  [limits.bytes, limits.depth, limits.members].all fun limit =>
    decide (0 < limit) && decide (limit ≤ maxSafeInteger)

/-- The message of the error that a value or its limits are refused with. -/
def canonicalizeBoundedJson (value : ScriptValue Number) (limits : BoundedJsonLimits) :
    Except String (BoundedJsonValue Number) :=
  if !limits.isValid then .error "JSON limits must be positive safe integers"
  else
    match inspectBoundedJson value limits with
    | .error reason => .error reason.message
    | .ok snapshot => .ok snapshot

end

/-!
## The size of a value
-/

section

variable {Number : Type}

mutual

/-- Scalars have no depth; an array or object is one level deeper than its children. -/
def BoundedJsonValue.depth : BoundedJsonValue Number -> Nat
  | .array items => itemsDepth items + 1
  | .object members => membersDepth members + 1
  | _ => 0

def itemsDepth : List (BoundedJsonValue Number) -> Nat
  | [] => 0
  | item :: rest => max item.depth (itemsDepth rest)

def membersDepth : List (ScriptString × BoundedJsonValue Number) -> Nat
  | [] => 0
  | (_, value) :: rest => max value.depth (membersDepth rest)

end

mutual

/-- The number of keys of all arrays and objects of the value. -/
def BoundedJsonValue.memberCount : BoundedJsonValue Number -> Nat
  | .array items => items.length + itemsCount items
  | .object members => members.length + membersCount members
  | _ => 0

def itemsCount : List (BoundedJsonValue Number) -> Nat
  | [] => 0
  | item :: rest => item.memberCount + itemsCount rest

def membersCount : List (ScriptString × BoundedJsonValue Number) -> Nat
  | [] => 0
  | (_, value) :: rest => value.memberCount + membersCount rest

end

theorem itemsDepth_le_iff {items : List (BoundedJsonValue Number)} {levels : Nat} :
    itemsDepth items ≤ levels ↔ forall item, item ∈ items -> item.depth ≤ levels := by
  induction items with
  | nil => simp [itemsDepth]
  | cons item rest ih => simp [itemsDepth, ih]

theorem membersDepth_le_iff {members : List (ScriptString × BoundedJsonValue Number)}
    {levels : Nat} :
    membersDepth members ≤ levels ↔ forall member, member ∈ members ->
      member.snd.depth ≤ levels := by
  induction members with
  | nil => simp [membersDepth]
  | cons member rest ih => simp [membersDepth, ih]

@[simp] theorem itemsCount_append (left right : List (BoundedJsonValue Number)) :
    itemsCount (left ++ right) = itemsCount left + itemsCount right := by
  induction left with
  | nil => simp [itemsCount]
  | cons item rest ih =>
      rw [List.cons_append, itemsCount, itemsCount, ih]
      omega

theorem membersCount_defineProperty (key : ScriptString) (value : BoundedJsonValue Number)
    (members : List (ScriptString × BoundedJsonValue Number)) :
    (defineProperty key value members).length + membersCount (defineProperty key value members) ≤
      members.length + membersCount members + (1 + value.memberCount) := by
  induction members with
  | nil => simp [defineProperty, membersCount]
  | cons member rest ih =>
      obtain ⟨name, old⟩ := member
      rw [defineProperty]
      split
      · simp only [List.length_cons, membersCount]
        omega
      · split
        · simp only [List.length_cons, membersCount] at ih ⊢
          omega
        · simp only [List.length_cons, membersCount]
          omega

structure FitsTarget (levels : Nat) (target : JsonTarget Number) : Prop where
  ordered : target.value.Ordered
  depth : target.value.depth ≤ levels + 1

theorem fitsTarget_assignChild {levels : Nat} {target : JsonTarget Number} {key : ScriptString}
    {child : BoundedJsonValue Number} (h : FitsTarget levels target) (hordered : child.Ordered)
    (hdepth : child.depth ≤ levels) : FitsTarget levels (assignChild target key child) := by
  have htarget := h.depth
  cases target with
  | items held =>
      constructor
      · apply orderedItems_iff.mpr
        intro item hitem
        cases List.mem_append.mp hitem with
        | inl hold => exact orderedItems_iff.mp h.ordered item hold
        | inr hnew => exact List.mem_singleton.mp hnew ▸ hordered
      · simp only [assignChild, JsonTarget.value, BoundedJsonValue.depth, Nat.add_le_add_iff_right,
          itemsDepth_le_iff] at htarget ⊢
        intro item hitem
        cases List.mem_append.mp hitem with
        | inl hold => exact htarget item hold
        | inr hnew => exact List.mem_singleton.mp hnew ▸ hdepth
  | members held =>
      constructor
      · exact ordered_defineProperty hordered h.ordered
      · simp only [assignChild, JsonTarget.value, BoundedJsonValue.depth, Nat.add_le_add_iff_right,
          membersDepth_le_iff] at htarget ⊢
        intro member hmember
        cases mem_of_mem_defineProperty hmember with
        | inl hnew => rw [hnew]; exact hdepth
        | inr hold => exact htarget member hold

theorem memberCount_assignChild (target : JsonTarget Number) (key : ScriptString)
    (child : BoundedJsonValue Number) :
    (assignChild target key child).value.memberCount ≤
      target.value.memberCount + (1 + child.memberCount) := by
  cases target with
  | items held =>
      simp only [assignChild, JsonTarget.value, BoundedJsonValue.memberCount, List.length_append,
        List.length_singleton, itemsCount_append, itemsCount]
      omega
  | members held =>
      simp only [assignChild, JsonTarget.value, BoundedJsonValue.memberCount]
      exact membersCount_defineProperty key child held

end

/-!
## What the walk guarantees

A snapshot keeps the order of own keys, lies within the levels allowed, and has
no more members than the walk has counted.
-/

section

variable {Number : Type} [ScriptNumber Number] {limits : BoundedJsonLimits}

structure WalkFits (limits : BoundedJsonLimits) (levels before : Nat)
    (result : BoundedJsonValue Number × Nat) : Prop where
  ordered : result.fst.Ordered
  depth : result.fst.depth ≤ levels
  count : before + result.fst.memberCount ≤ result.snd
  bound : result.snd ≤ limits.members

def NestedFits (limits : BoundedJsonLimits) (levels : Nat)
    (nested : Option (ScriptValue Number -> Nat ->
      Except BoundedJsonFailureReason (BoundedJsonValue Number × Nat))) : Prop :=
  forall inspect, nested = some inspect -> forall value before result,
    before ≤ limits.members -> inspect value before = .ok result ->
      WalkFits limits levels before result

theorem primitiveJson_spec {value : ScriptValue Number} {scalar : BoundedJsonValue Number}
    (h : primitiveJson value = some scalar) :
    scalar.Ordered ∧ scalar.depth = 0 ∧ scalar.memberCount = 0 := by
  rw [primitiveJson.eq_def] at h
  split at h
  · cases h; simp [BoundedJsonValue.Ordered, BoundedJsonValue.depth, BoundedJsonValue.memberCount]
  · cases h; simp [BoundedJsonValue.Ordered, BoundedJsonValue.depth, BoundedJsonValue.memberCount]
  · cases h; simp [BoundedJsonValue.Ordered, BoundedJsonValue.depth, BoundedJsonValue.memberCount]
  · cases h; simp [BoundedJsonValue.Ordered, BoundedJsonValue.depth, BoundedJsonValue.memberCount]
  · cases h; simp [BoundedJsonValue.Ordered, BoundedJsonValue.depth, BoundedJsonValue.memberCount]
  · cases h

/-- A visited key adds one member and the members of its child. -/
theorem inspectChild_spec {levels : Nat}
    {nested : Option (ScriptValue Number -> Nat ->
      Except BoundedJsonFailureReason (BoundedJsonValue Number × Nat))}
    (hnested : NestedFits limits levels nested) {state after : JsonTarget Number × Nat}
    {child : ScriptString × ScriptSlot (ScriptValue Number)}
    (h : inspectChild limits nested state child = .ok after) :
    exists value, after.fst = assignChild state.fst child.fst value ∧ value.Ordered ∧
      value.depth ≤ levels ∧ state.snd + (1 + value.memberCount) ≤ after.snd ∧
      after.snd ≤ limits.members := by
  rw [inspectChild] at h
  split at h
  · cases h
  · next hmembers =>
    split at h
    · cases h
    · cases h
    · next value _ =>
      split at h
      · next scalar hscalar =>
        cases h
        rcases primitiveJson_spec hscalar with ⟨hordered, hdepth, hcount⟩
        exact ⟨scalar, rfl, hordered, by omega, by dsimp only; omega, by dsimp only; omega⟩
      · split at h
        · cases h
        · split at h
          · cases h
          · next inspect =>
            rcases exists_of_map_eq_ok h with ⟨result, hresult, hafter⟩
            have hwalk := hnested inspect rfl value (state.snd + 1) result (by omega) hresult
            have hcount := hwalk.count
            cases hafter
            exact ⟨result.fst, rfl, hwalk.ordered, hwalk.depth, by dsimp only; omega,
              hwalk.bound⟩

omit [ScriptNumber Number] in
theorem fitsTarget_inspectContainer {value : ScriptValue Number} {frame : JsonFrame Number}
    (h : inspectContainer limits value = .ok frame) (levels : Nat) :
    FitsTarget levels frame.target ∧ frame.target.value.memberCount = 0 := by
  have hitems : FitsTarget levels (.items [] : JsonTarget Number) := by
    constructor
    · exact trivial
    · simp [JsonTarget.value, BoundedJsonValue.depth, itemsDepth]
  have hmembers : FitsTarget levels (.members [] : JsonTarget Number) := by
    constructor
    · exact ⟨List.Pairwise.nil, trivial⟩
    · simp [JsonTarget.value, BoundedJsonValue.depth, membersDepth]
  rw [inspectContainer.eq_def] at h
  split at h
  · split at h
    · cases h
    split at h
    · cases h
    split at h
    · cases h
    · cases h
      exact ⟨hitems, rfl⟩
  · split at h
    · cases h
    split at h
    · cases h
    · cases h
      exact ⟨hmembers, rfl⟩
  · cases h
  · cases h
  · cases h

theorem inspectFrame_spec {levels before : Nat}
    {nested : Option (ScriptValue Number -> Nat ->
      Except BoundedJsonFailureReason (BoundedJsonValue Number × Nat))}
    (hnested : NestedFits limits levels nested) (hbefore : before ≤ limits.members)
    {value : ScriptValue Number} {result : BoundedJsonValue Number × Nat}
    (h : inspectFrame limits nested value before = .ok result) :
    WalkFits limits (levels + 1) before result := by
  rw [inspectFrame] at h
  rcases exists_of_bind_eq_ok h with ⟨frame, hframe, hrest⟩
  rcases exists_of_bind_eq_ok hrest with ⟨last, hlast, hresult⟩
  rcases fitsTarget_inspectContainer hframe levels with ⟨hfits, hcount⟩
  have hrun : FitsTarget levels last.fst ∧ before + last.fst.value.memberCount ≤ last.snd ∧
      last.snd ≤ limits.members := by
    apply foldlM_invariant (fun state : JsonTarget Number × Nat => FitsTarget levels state.fst ∧
      before + state.fst.value.memberCount ≤ state.snd ∧ state.snd ≤ limits.members) _ _ hlast
    · exact ⟨hfits, by dsimp only; omega, hbefore⟩
    · intro child _ state after hstate hafter
      rcases inspectChild_spec hnested hafter
        with ⟨taken, htarget, hordered, hdepth, hadded, hbound⟩
      have hassigned := memberCount_assignChild state.fst child.fst taken
      have hcounted := hstate.right.left
      rw [htarget]
      exact ⟨fitsTarget_assignChild hstate.left hordered hdepth, by omega, hbound⟩
  cases pure_eq_ok_iff.mp hresult
  exact ⟨hrun.left.ordered, hrun.left.depth, hrun.right.left, hrun.right.right⟩

theorem inspectObject_spec {levels before : Nat} (hbefore : before ≤ limits.members)
    {value : ScriptValue Number} {result : BoundedJsonValue Number × Nat}
    (h : inspectObject limits levels value before = .ok result) :
    WalkFits limits (levels + 1) before result := by
  induction levels generalizing value before result with
  | zero =>
      apply inspectFrame_spec _ hbefore h
      intro inspect hnone
      cases hnone
  | succ levels ih =>
      apply inspectFrame_spec _ hbefore h
      intro inspect hsome value start result hstart hresult
      cases hsome
      exact ih hstart hresult

/-- A value within its limits whose objects keep the order of own keys. -/
structure SnapshotFits (limits : BoundedJsonLimits) (snapshot : BoundedJsonValue Number) :
    Prop where
  ordered : snapshot.Ordered
  depth : snapshot.depth ≤ limits.depth
  members : snapshot.memberCount ≤ limits.members
  bytes : utf8ByteLength (stringify snapshot) ≤ limits.bytes

theorem boundedSnapshot_eq_ok_iff {snapshot result : BoundedJsonValue Number} :
    boundedSnapshot limits snapshot = .ok result ↔
      utf8ByteLength (stringify snapshot) ≤ limits.bytes ∧ snapshot = result := by
  rw [boundedSnapshot]
  split
  · next h => simp [h]
  · next h => simp [Nat.le_of_not_lt h]

theorem snapshotFits_of_inspectBoundedJson {value : ScriptValue Number}
    {snapshot : BoundedJsonValue Number} (hdepth : 0 < limits.depth)
    (h : inspectBoundedJson value limits = .ok snapshot) :
    SnapshotFits limits snapshot := by
  rw [inspectBoundedJson] at h
  split at h
  · next primitive hprimitive =>
    rcases boundedSnapshot_eq_ok_iff.mp h with ⟨hbytes, rfl⟩
    rcases primitiveJson_spec hprimitive with ⟨hordered, hzero, hnone⟩
    exact ⟨hordered, by omega, by omega, hbytes⟩
  · split at h
    · cases h
    · rcases exists_of_bind_eq_ok h with ⟨result, hresult, hbounded⟩
      rcases boundedSnapshot_eq_ok_iff.mp hbounded with ⟨hbytes, rfl⟩
      have hwalk := inspectObject_spec (Nat.zero_le _) hresult
      have hlevels := hwalk.depth
      have hcount := hwalk.count
      have hbound := hwalk.bound
      exact ⟨hwalk.ordered, by omega, by omega, hbytes⟩

theorem canonicalizeBoundedJson_eq_ok_iff (hvalid : limits.isValid = true)
    {value : ScriptValue Number} {snapshot : BoundedJsonValue Number} :
    canonicalizeBoundedJson value limits = .ok snapshot ↔
      inspectBoundedJson value limits = .ok snapshot := by
  rw [canonicalizeBoundedJson, hvalid]
  cases inspectBoundedJson value limits with
  | error reason => simp
  | ok snapshot => simp

end

/-!
## Walking a plain value

A plain value, such as the parser builds, is read back as it is when it lies
within the limits.
-/

section

variable {Number : Type} {limits : BoundedJsonLimits}

def BoundedJsonValue.isScalar : BoundedJsonValue Number -> Bool
  | .array _ => false
  | .object _ => false
  | _ => true

theorem sizes_of_isScalar {value : BoundedJsonValue Number} (h : value.isScalar = true) :
    value.depth = 0 ∧ value.memberCount = 0 := by
  cases value with
  | array items => cases h
  | object members => cases h
  | _ => exact ⟨rfl, rfl⟩

theorem length_scriptItems (items : List (BoundedJsonValue Number)) :
    (scriptItems items).length = items.length := by
  induction items with
  | nil => rfl
  | cons item rest ih => simp [scriptItems, ih]

theorem countP_isPresent_scriptItems (items : List (BoundedJsonValue Number)) :
    (scriptItems items).countP ScriptSlot.isPresent = items.length := by
  induction items with
  | nil => rfl
  | cons item rest ih =>
      rw [scriptItems, List.countP_cons_of_pos rfl, ih]
      rfl

theorem inspectContainer_array {items : List (BoundedJsonValue Number)}
    (h : items.length ≤ limits.members) :
    inspectContainer limits (BoundedJsonValue.array items).script =
      .ok { target := .items [], slots := indexedSlots (scriptItems items) } := by
  simp [BoundedJsonValue.script, plainArray, inspectContainer, Nat.not_lt.mpr h,
    countP_isPresent_scriptItems, length_scriptItems]

theorem isObject_script {value : BoundedJsonValue Number} (h : value.isScalar = false) :
    value.script.isObject = true := by
  cases value with
  | array items => rfl
  | object members => rfl
  | null => cases h
  | bool value => cases h
  | number value => cases h
  | string text => cases h

end

section

variable {Number : Type} [ScriptNumber Number] {limits : BoundedJsonLimits}

theorem primitiveJson_script_of_isScalar {value : BoundedJsonValue Number}
    (h : value.isScalar = true) : primitiveJson value.script = some value := by
  cases value with
  | array items => cases h
  | object members => cases h
  | null => rfl
  | bool value => rfl
  | number value => rfl
  | string text => rfl

theorem primitiveJson_script_of_not_isScalar {value : BoundedJsonValue Number}
    (h : value.isScalar = false) : primitiveJson value.script = none := by
  cases value with
  | array items => rfl
  | object members => rfl
  | null => cases h
  | bool value => cases h
  | number value => cases h
  | string text => cases h

/-- The walk takes the value as the child of any key when the members suffice. -/
def TakesChild (limits : BoundedJsonLimits)
    (nested : Option (ScriptValue Number -> Nat ->
      Except BoundedJsonFailureReason (BoundedJsonValue Number × Nat)))
    (value : BoundedJsonValue Number) : Prop :=
  forall (target : JsonTarget Number) (key : ScriptString) (before : Nat),
    before + 1 + value.memberCount ≤ limits.members ->
    inspectChild limits nested (target, before) (key, .data value.script) =
      .ok (assignChild target key value, before + 1 + value.memberCount)

theorem takesChild_of_isScalar {value : BoundedJsonValue Number} (h : value.isScalar = true)
    (nested : Option (ScriptValue Number -> Nat ->
      Except BoundedJsonFailureReason (BoundedJsonValue Number × Nat))) :
    TakesChild limits nested value := by
  intro target key before hmembers
  have hprimitive := primitiveJson_script_of_isScalar h
  have hcount := (primitiveJson_spec hprimitive).right.right
  have hlimit : ¬ before + 1 > limits.members := by omega
  simp [inspectChild, hlimit, hprimitive, hcount]

theorem takesChild_of_inspect {value : BoundedJsonValue Number} (h : value.isScalar = false)
    {inspect : ScriptValue Number -> Nat ->
      Except BoundedJsonFailureReason (BoundedJsonValue Number × Nat)}
    (hinspect : forall before, before + value.memberCount ≤ limits.members ->
      inspect value.script before = .ok (value, before + value.memberCount)) :
    TakesChild limits (some inspect) value := by
  intro target key before hmembers
  have hlimit : ¬ before + 1 > limits.members := by omega
  simp [inspectChild, hlimit, primitiveJson_script_of_not_isScalar h, isObject_script h,
    hinspect (before + 1) hmembers, Except.map]

theorem foldlM_inspectChild_items {nested : Option (ScriptValue Number -> Nat ->
      Except BoundedJsonFailureReason (BoundedJsonValue Number × Nat))}
    {items : List (BoundedJsonValue Number)}
    (htakes : forall item, item ∈ items -> TakesChild limits nested item)
    (held : List (BoundedJsonValue Number)) (first before : Nat)
    (hmembers : before + (BoundedJsonValue.array items).memberCount ≤ limits.members) :
    (((scriptItems items).zipIdx first).map fun (slot, index) =>
        (scriptString (toString index), slot)).foldlM (inspectChild limits nested)
        (.items held, before) =
      .ok (.items (held ++ items), before + (BoundedJsonValue.array items).memberCount) := by
  induction items generalizing held first before with
  | nil => simp [scriptItems, BoundedJsonValue.memberCount, itemsCount, pure, Except.pure]
  | cons item rest ih =>
      simp only [BoundedJsonValue.memberCount, List.length_cons, itemsCount] at hmembers
      have hitem := htakes item (List.mem_cons_self ..) (.items held)
        (scriptString (toString first)) before (by omega)
      have hrest := ih (fun other hother => htakes other (List.mem_cons_of_mem _ hother))
        (held ++ [item]) (first + 1) (before + 1 + item.memberCount)
        (by simp only [BoundedJsonValue.memberCount]; omega)
      rw [scriptItems, List.zipIdx_cons, List.map_cons, List.foldlM_cons]
      dsimp only
      rw [hitem]
      change List.foldlM _ (JsonTarget.items (held ++ [item]), before + 1 + item.memberCount) _ = _
      rw [hrest, List.append_assoc]
      simp only [BoundedJsonValue.memberCount, List.length_cons, itemsCount, List.singleton_append]
      congr 2
      omega

theorem foldlM_inspectChild_members {nested : Option (ScriptValue Number -> Nat ->
      Except BoundedJsonFailureReason (BoundedJsonValue Number × Nat))}
    {members : List (ScriptString × BoundedJsonValue Number)}
    (htakes : forall member, member ∈ members -> TakesChild limits nested member.snd)
    (held : List (ScriptString × BoundedJsonValue Number)) (horder : OwnOrder (held ++ members))
    (before : Nat)
    (hmembers : before + (BoundedJsonValue.object members).memberCount ≤ limits.members) :
    (scriptMembers members).foldlM (inspectChild limits nested) (.members held, before) =
      .ok (.members (held ++ members),
        before + (BoundedJsonValue.object members).memberCount) := by
  induction members generalizing held before with
  | nil => simp [scriptMembers, BoundedJsonValue.memberCount, membersCount, pure, Except.pure]
  | cons member rest ih =>
      obtain ⟨name, value⟩ := member
      rw [List.append_cons] at horder
      simp only [BoundedJsonValue.memberCount, List.length_cons, membersCount] at hmembers
      have hvalue := htakes (name, value) (List.mem_cons_self ..) (.members held) name before
        (by dsimp only; omega)
      have hdefined := defineProperty_of_ownOrder (List.pairwise_append.mp horder).left
      have hrest := ih (fun other hother => htakes other (List.mem_cons_of_mem _ hother))
        (held ++ [(name, value)]) horder (before + 1 + value.memberCount)
        (by simp only [BoundedJsonValue.memberCount]; omega)
      rw [scriptMembers, List.foldlM_cons]
      dsimp only at hvalue
      rw [hvalue, assignChild, hdefined]
      change List.foldlM _ (JsonTarget.members (held ++ [(name, value)]),
        before + 1 + value.memberCount) _ = _
      rw [hrest, List.append_assoc]
      simp only [BoundedJsonValue.memberCount, List.length_cons, membersCount,
        List.singleton_append]
      congr 2
      omega

theorem inspectFrame_script {nested : Option (ScriptValue Number -> Nat ->
      Except BoundedJsonFailureReason (BoundedJsonValue Number × Nat))} {levels : Nat}
    (htakes : forall child : BoundedJsonValue Number, child.Ordered -> child.depth ≤ levels ->
      TakesChild limits nested child)
    {value : BoundedJsonValue Number} (hscalar : value.isScalar = false) (hordered : value.Ordered)
    (hdepth : value.depth ≤ levels + 1) {before : Nat}
    (hmembers : before + value.memberCount ≤ limits.members) :
    inspectFrame limits nested value.script before =
      .ok (value, before + value.memberCount) := by
  cases value with
  | array items =>
      have hlength : items.length ≤ limits.members := by
        simp only [BoundedJsonValue.memberCount] at hmembers
        omega
      have hitems : forall item, item ∈ items -> TakesChild limits nested item := by
        intro item hitem
        apply htakes item (orderedItems_iff.mp hordered item hitem)
        exact itemsDepth_le_iff.mp (Nat.le_of_succ_le_succ hdepth) item hitem
      rw [inspectFrame, inspectContainer_array hlength]
      have hwalk := foldlM_inspectChild_items hitems [] 0 before hmembers
      change ((indexedSlots (scriptItems items)).foldlM (inspectChild limits nested)
        (.items [], before) >>= fun state => pure (state.fst.value, state.snd)) = _
      rw [indexedSlots, hwalk]
      rfl
  | object members =>
      have hvalues : forall member, member ∈ members ->
          TakesChild limits nested member.snd := by
        intro member hmember
        apply htakes member.snd (orderedMembers_iff.mp hordered.right member hmember)
        exact membersDepth_le_iff.mp (Nat.le_of_succ_le_succ hdepth) member hmember
      have hwalk := foldlM_inspectChild_members hvalues [] hordered.left before hmembers
      change ((scriptMembers members).foldlM (inspectChild limits nested)
        (.members [], before) >>= fun state => pure (state.fst.value, state.snd)) = _
      rw [hwalk]
      rfl
  | null => cases hscalar
  | bool value => cases hscalar
  | number value => cases hscalar
  | string text => cases hscalar

theorem inspectObject_script {levels : Nat} {value : BoundedJsonValue Number}
    (hscalar : value.isScalar = false) (hordered : value.Ordered)
    (hdepth : value.depth ≤ levels + 1) {before : Nat}
    (hmembers : before + value.memberCount ≤ limits.members) :
    inspectObject limits levels value.script before =
      .ok (value, before + value.memberCount) := by
  induction levels generalizing value before with
  | zero =>
      apply inspectFrame_script _ hscalar hordered hdepth hmembers
      intro child _ hchild
      apply takesChild_of_isScalar
      cases child with
      | array items => simp [BoundedJsonValue.depth] at hchild
      | object members => simp [BoundedJsonValue.depth] at hchild
      | null => rfl
      | bool value => rfl
      | number value => rfl
      | string text => rfl
  | succ levels ih =>
      apply inspectFrame_script _ hscalar hordered hdepth hmembers
      intro child hchild hchildDepth
      cases hkind : child.isScalar with
      | true => exact takesChild_of_isScalar hkind _
      | false =>
          apply takesChild_of_inspect hkind
          intro start hstart
          exact ih hkind hchild hchildDepth hstart

theorem inspectBoundedJson_script {snapshot : BoundedJsonValue Number}
    (hdepth : 0 < limits.depth) (h : SnapshotFits limits snapshot) :
    inspectBoundedJson snapshot.script limits = .ok snapshot := by
  have hbounded := boundedSnapshot_eq_ok_iff.mpr ⟨h.bytes, rfl⟩
  rw [inspectBoundedJson]
  cases hkind : snapshot.isScalar with
  | true =>
      rw [primitiveJson_script_of_isScalar hkind]
      exact hbounded
  | false =>
      have hlevels := h.depth
      have hmembers := h.members
      have hwalk : inspectObject limits (limits.depth - 1) snapshot.script 0 =
          .ok (snapshot, 0 + snapshot.memberCount) :=
        inspectObject_script hkind h.ordered (by omega) (by omega)
      rw [primitiveJson_script_of_not_isScalar hkind, isObject_script hkind, hwalk]
      exact hbounded

end

end Values
end Pertexo
