import Pertexo.JsonBoundaries.EngineAdmission
import Pertexo.JsonBoundaries.GraphWalk

/-!
# What graph admission admits

## Single charges
-/

namespace Pertexo
namespace JsonBoundaries

open Canonical
open Library
open Pagination
open PortableText
open Portability
open Values

/-- Of graph input the bytes and the depth are limited, and a scalar has a depth too. -/
def inputLimits (limits : AdmissionLimits) : TotalLimits
  | .bytes => some limits.graphBytes
  | .members => none
  | .depth => some limits.inputDepth

def admissionKind (failure : AdmissionFailure) : Option LimitKind :=
  match failure.code with
  | .graphLimit => some .bytes
  | .jsonValueDepth => some .depth
  | _ => none

/-- Every budget is none at all, or the bytes it was made of. -/
def IsBudget (budget : Int -> Option Int) : Prop :=
  budget = some ∨ budget = fun _ => none

def InspectionState.spent (state : InspectionState) : Totals :=
  counting state.bytes 0

def InspectionState.charge (state : InspectionState) (total : Totals) : InspectionState :=
  { state with bytes := state.bytes + total.bytes }

theorem InspectionState.charge_add (state : InspectionState) (first second : Totals) :
    (state.charge first).charge second = state.charge (first + second) := by
  simp [InspectionState.charge, Nat.add_assoc]

section

variable {limits : AdmissionLimits} {budget : Int -> Option Int}

def inspected (bytes depth : Nat) : Totals :=
  { bytes, members := 0, depth }

theorem within_inspected {bytes depth : Nat} :
    Within (inputLimits limits) (inspected bytes depth) ↔
      bytes ≤ limits.graphBytes ∧ depth ≤ limits.inputDepth := by
  constructor
  · intro h
    constructor
    · exact Nat.le_of_not_lt fun hlt => h .bytes ⟨limits.graphBytes, rfl, hlt⟩
    · exact Nat.le_of_not_lt fun hlt => h .depth ⟨limits.inputDepth, rfl, hlt⟩
  · rintro ⟨hbytes, hdepth⟩ kind ⟨maximum, hlimit, hexceeds⟩
    cases kind with
    | bytes =>
        cases hlimit
        exact absurd hbytes (Nat.not_le_of_lt hexceeds)
    | members => cases hlimit
    | depth =>
        cases hlimit
        exact absurd hdepth (Nat.not_le_of_lt hexceeds)

theorem exceeds_measured (hbudget : IsBudget budget) {left : Int} {length whole : Nat}
    (hmeasures : Measures (budget left) length whole) :
    length = whole ∨ (left < length ∧ left < whole) := by
  rcases hbudget with rfl | rfl
  · exact hmeasures
  · exact Or.inl hmeasures

theorem checkMember_data {Number : Type} (hbudget : IsBudget budget) (path : ScriptString)
    (bytes : Nat) (key : ScriptString) (value : ProgramValue Number) :
    checkMember budget limits path bytes (key, .data value) =
      if bytes + (Values.utf8ByteLength (quoteText key) + 1) > limits.graphBytes then
        .error graphLimitFailure
      else .ok (bytes + (Values.utf8ByteLength (quoteText key) + 1)) := by
  have hmeasures := exceeds_measured hbudget
    (measures_jsonStringByteLength key (budget (remainingBytes limits bytes - 1)))
  rw [checkMember]
  dsimp only
  rcases hmeasures with hsame | ⟨hlength, hwhole⟩
  · rw [hsame]
  · have hleft : remainingBytes limits bytes = (limits.graphBytes : Int) - bytes := rfl
    rw [if_pos (by omega), if_pos (by omega)]

theorem foldlM_checkMember {Number Result : Type} (limits : AdmissionLimits)
    (hbudget : IsBudget budget) (path : ScriptString)
    {members : List (ScriptString × OwnProperty (ProgramValue Number))}
    (hdata : forall member, member ∈ members -> exists value, member.snd = .data value)
    (bytes : Nat) (rest : Nat -> Except AdmissionFailure Result) :
    (members.foldlM (checkMember budget limits path) bytes >>= fun counted =>
      if counted > limits.graphBytes then .error graphLimitFailure else rest counted) =
    (let counted := bytes + (members.map fun member =>
        Values.utf8ByteLength (quoteText member.fst) + 1).sum
      if counted > limits.graphBytes then .error graphLimitFailure else rest counted) := by
  induction members generalizing bytes with
  | nil => rfl
  | cons member others ih =>
      rcases member with ⟨key, property⟩
      rcases hdata _ List.mem_cons_self with ⟨value, rfl⟩
      rw [List.foldlM_cons, checkMember_data hbudget, List.map_cons, List.sum_cons]
      dsimp only
      split
      · rw [if_pos (by omega)]
        rfl
      · have hrest := ih (fun other hother => hdata other (List.mem_cons_of_mem _ hother))
          (bytes + (Values.utf8ByteLength (quoteText key) + 1))
        have hassoc : bytes + (Values.utf8ByteLength (quoteText key) + 1 +
              (others.map fun member => Values.utf8ByteLength (quoteText member.fst) + 1).sum) =
            bytes + (Values.utf8ByteLength (quoteText key) + 1) +
              (others.map fun member => Values.utf8ByteLength (quoteText member.fst) + 1).sum :=
          (Nat.add_assoc _ _ _).symm
        rw [hassoc]
        exact hrest

end

/-!
## Walking graph input
-/

section

variable {Number : Type} [DecimalNumber Number] {limits : AdmissionLimits}
  {budget : Int -> Option Int} {allowNonFiniteNumbers : Bool}

omit [DecimalNumber Number] in
theorem measures_utf8ByteLength (text : List Char) (stopAfterBytes : Option Int) :
    Measures stopAfterBytes (utf8ByteLength (text.map .char) stopAfterBytes)
      (Values.utf8ByteLength text) := by
  rw [← utf8ByteLength_none]
  cases stopAfterBytes with
  | none => exact rfl
  | some maximum => exact utf8ByteLength_sameWithin _ maximum

theorem primitiveLength_spec (allowNonFiniteNumbers : Bool) {value : ProgramValue Number}
    {data : BoundedJsonValue Number} (hdata : value.json? = some data)
    (hscalar : data.isScalar = true) (stopAfterBytes : Option Int) :
    exists length, primitiveLength allowNonFiniteNumbers value stopAfterBytes = some length ∧
      Measures stopAfterBytes length (textBytes data) := by
  cases isScalar_of_json hdata hscalar with
  | null => exact ⟨_, rfl, measures_utf8ByteLength _ _⟩
  | bool value =>
      refine ⟨_, rfl, ?_⟩
      cases value with
      | true => exact measures_utf8ByteLength _ _
      | false => exact measures_utf8ByteLength _ _
  | string text => exact ⟨_, rfl, measures_jsonStringByteLength text stopAfterBytes⟩
  | finite value => exact ⟨_, rfl, measures_utf8ByteLength _ _⟩
  | negativeZero =>
      refine ⟨_, rfl, ?_⟩
      rw [textBytes, stringify, DecimalNumber.text_zero]
      exact measures_utf8ByteLength _ _

def graphTotals (depth : Nat) (data : BoundedJsonValue Number) : Totals :=
  inspected (textBytes data) (depth + height data)

/-- Inspecting the value comes to the totals of the data, whatever was counted before. -/
def EntersAs (limits : AdmissionLimits) (budget : Int -> Option Int)
    (allowNonFiniteNumbers : Bool) (ancestors : List Nat) (depth : Nat)
    (value : ProgramValue Number) (data : BoundedJsonValue Number) : Prop :=
  forall path : ScriptString,
    Spends (inputLimits limits) admissionKind InspectionState.spent
      (admissionMachine Number budget limits allowNonFiniteNumbers)
      (fun state => state.ancestors = ancestors) InspectionState.charge (.enter value path depth)
      (graphTotals depth data)

theorem entersAs_scalar (hbudget : IsBudget budget) {ancestors : List Nat} {depth : Nat}
    {value : ProgramValue Number} {data : BoundedJsonValue Number}
    (hdata : value.json? = some data) (hscalar : data.isScalar = true) :
    EntersAs limits budget allowNonFiniteNumbers ancestors depth value data := by
  intro path state hancestors hwithin
  refine ⟨hancestors, rfl, ?_⟩
  rcases primitiveLength_spec allowNonFiniteNumbers hdata hscalar
    (budget (remainingBytes limits state.bytes)) with ⟨length, hlength, hmeasures⟩
  have hheight : height data = 0 := by
    cases data with
    | array items => cases hscalar
    | object members => cases hscalar
    | _ => rfl
  have htotal : state.spent + graphTotals depth data =
      inspected (state.bytes + textBytes data) depth := by
    ext
    · rfl
    · rfl
    · show max 0 (depth + height data) = depth
      rw [hheight, Nat.zero_max, Nat.add_zero]
  rw [StackMachine.run_singleton, htotal]
  show Accounts _ _ _ _ (takeEntry budget limits allowNonFiniteNumbers value path depth state >>= _)
  rw [takeEntry.eq_def, hlength]
  dsimp only
  by_cases hdeep : depth > limits.inputDepth
  · rw [if_pos hdeep]
    exact accounts_error rfl ⟨limits.inputDepth, rfl, hdeep⟩
  · rw [if_neg hdeep]
    have hleft : remainingBytes limits state.bytes = (limits.graphBytes : Int) - state.bytes := rfl
    by_cases hlarge : state.bytes + textBytes data > limits.graphBytes
    · have hmeasured : state.bytes + length > limits.graphBytes := by
        rcases exceeds_measured hbudget hmeasures with hsame | ⟨hover, _⟩
        · rw [hsame]
          exact hlarge
        · omega
      rw [if_pos hmeasured]
      exact accounts_error rfl ⟨limits.graphBytes, rfl, hlarge⟩
    · have hsame : length = textBytes data := by
        rcases exceeds_measured hbudget hmeasures with hsame | ⟨_, hover⟩
        · exact hsame
        · omega
      rw [hsame, if_neg hlarge]
      refine Or.inl ⟨StackMachine.run_nil _, within_inspected.mpr ?_⟩
      exact ⟨Nat.le_of_not_lt hlarge, Nat.le_of_not_lt hdeep⟩

omit [DecimalNumber Number] in
theorem accounts_enterContainer {State : Type} {bytes depth : Nat} {path : ScriptString}
    {ancestors : List Nat} {identity : Nat} (hfresh : identity ∉ ancestors) {final : State} :
    Accounts (inputLimits limits) admissionKind (inspected bytes depth) final
      (if depth > limits.inputDepth then .error (inputDepthFailure limits path)
        else if ancestors.contains identity then
          .error (invalidFailure path "cyclic values are not JSON")
        else if bytes > limits.graphBytes then .error graphLimitFailure
        else .ok final) := by
  have hnew : ¬ ancestors.contains identity = true := fun h =>
    hfresh (List.contains_iff_mem.mp h)
  rw [if_neg hnew]
  by_cases hdeep : depth > limits.inputDepth
  · rw [if_pos hdeep]
    exact accounts_error rfl ⟨limits.inputDepth, rfl, hdeep⟩
  · rw [if_neg hdeep]
    by_cases hlarge : bytes > limits.graphBytes
    · rw [if_pos hlarge]
      exact accounts_error rfl ⟨limits.graphBytes, rfl, hlarge⟩
    · rw [if_neg hlarge]
      refine Or.inl ⟨rfl, within_inspected.mpr ?_⟩
      exact ⟨Nat.le_of_not_lt hlarge, Nat.le_of_not_lt hdeep⟩

omit [DecimalNumber Number] in
theorem inspectArrayUnsafe_data {items : List (Bool × OwnProperty (ProgramValue Number))}
    (hdata : forall item, item ∈ items -> exists value, item = (true, .data value))
    (identity : Nat) (path : ScriptString) (depth : Nat) (state : InspectionState) :
    inspectArrayUnsafe limits identity false items path depth state =
      if state.bytes + (2 + (items.length - 1)) > limits.graphBytes then .error graphLimitFailure
      else .ok (entryFrames (heldItems 0 items) (itemPath path) (depth + 1) identity,
        { ancestors := identity :: state.ancestors
          bytes := state.bytes + (2 + (items.length - 1)) }) := by
  have hchecked : items.zipIdx.reverse.forM (checkItem path) = Except.ok PUnit.unit := by
    rw [forM_eq_ok_iff]
    intro entry hentry
    rcases hdata entry.fst (List.fst_mem_of_mem_zipIdx (List.mem_reverse.mp hentry)) with
      ⟨value, hvalue⟩
    rw [checkItem, hvalue]
  have hleft : remainingBytes limits state.bytes = (limits.graphBytes : Int) - state.bytes := rfl
  rw [inspectArrayUnsafe, hchecked]
  by_cases hlarge : state.bytes + (2 + (items.length - 1)) > limits.graphBytes
  · rw [if_pos hlarge, if_pos (by omega)]
  · rw [if_neg hlarge, if_neg (by omega), if_neg (by decide)]
    rfl

omit [DecimalNumber Number] in
/-- The order in which the keys are counted does not matter. -/
theorem inspectObjectUnsafe_data (hbudget : IsBudget budget)
    {members : List (ScriptString × OwnProperty (ProgramValue Number))}
    (hdata : forall member, member ∈ members -> exists value, member.snd = .data value)
    (identity : Nat) (path : ScriptString) (depth : Nat) (state : InspectionState) :
    inspectObjectUnsafe budget limits identity true false members path depth state =
      (let bytes := state.bytes + (2 + ((members.map fun member =>
          Values.utf8ByteLength (quoteText member.fst) + 1).sum + (members.length - 1)))
      if bytes > limits.graphBytes then .error graphLimitFailure
      else .ok (entryFrames (readMembers members) (memberPath path) (depth + 1) identity,
        { ancestors := identity :: state.ancestors, bytes })) := by
  have hreverse : forall member, member ∈ members.reverse -> exists value,
      member.snd = .data value := fun member hmember =>
    hdata member (List.mem_reverse.mp hmember)
  have hcount := foldlM_checkMember limits hbudget path hreverse
    (state.bytes + (2 + (members.length - 1))) fun bytes =>
      .ok (entryFrames (readMembers members) (memberPath path) (depth + 1) identity,
        ({ ancestors := identity :: state.ancestors, bytes } : InspectionState))
  rw [List.map_reverse, List.sum_reverse, Nat.add_assoc, Nat.add_assoc,
    Nat.add_comm (members.length - 1)] at hcount
  rw [inspectObjectUnsafe, if_neg (by decide), if_neg (by decide)]
  exact hcount

omit [DecimalNumber Number] in
theorem members_inspected {Item : Type} (items : List Item) (bytes depth : Item -> Nat) :
    (items.map fun item => inspected (bytes item) (depth item)).sum.members = 0 := by
  rw [members_sum]
  apply List.sum_eq_zero
  intro members hmembers
  rcases List.mem_map.mp hmembers with ⟨_, _, rfl⟩
  rfl

theorem height_itemTotals (depth : Nat) (items : List (BoundedJsonValue Number)) :
    max depth (items.map (graphTotals (depth + 1))).sum.depth = depth + itemsHeight items := by
  induction items with
  | nil => exact Nat.max_eq_left (Nat.zero_le _)
  | cons item rest ih =>
      rw [List.map_cons, List.sum_cons, Totals.depth_add, itemsHeight]
      show max depth (max (depth + 1 + height item) _) = _
      omega

theorem height_memberTotals (depth : Nat)
    (members : List (ScriptString × BoundedJsonValue Number)) :
    max depth (members.map fun member => graphTotals (depth + 1) member.snd).sum.depth =
      depth + membersHeight members := by
  induction members with
  | nil => exact Nat.max_eq_left (Nat.zero_le _)
  | cons member rest ih =>
      rw [List.map_cons, List.sum_cons, Totals.depth_add, membersHeight]
      show max depth (max (depth + 1 + height member.snd) _) = _
      omega

theorem graphTotals_array (depth : Nat) (items : List (BoundedJsonValue Number)) :
    inspected (2 + (items.length - 1)) depth + (items.map (graphTotals (depth + 1))).sum =
      graphTotals depth (.array items) := by
  ext
  · rw [Totals.bytes_add, bytes_sum]
    show 2 + (items.length - 1) + (items.map textBytes).sum = textBytes (.array items)
    rw [textBytes_array]
    omega
  · rw [Totals.members_add]
    show 0 + _ = 0
    rw [Nat.zero_add]
    exact members_inspected items textBytes fun item => depth + 1 + height item
  · rw [Totals.depth_add]
    exact height_itemTotals depth items

theorem graphTotals_object (depth : Nat)
    (members : List (ScriptString × BoundedJsonValue Number)) :
    inspected (2 + ((members.map fun member =>
        Values.utf8ByteLength (quoteText member.fst) + 1).sum + (members.length - 1))) depth +
        (members.map fun member => graphTotals (depth + 1) member.snd).sum =
      graphTotals depth (.object members) := by
  ext
  · rw [Totals.bytes_add, bytes_sum]
    show 2 + (_ + (members.length - 1)) + (members.map fun member => textBytes member.snd).sum =
      textBytes (.object members)
    rw [textBytes_object, sum_memberBytes]
    omega
  · rw [Totals.members_add]
    show 0 + _ = 0
    rw [Nat.zero_add]
    exact members_inspected members (fun member => textBytes member.snd)
      fun member => depth + 1 + height member.snd
  · rw [Totals.depth_add]
    exact height_memberTotals depth members

theorem run_exitEntry (source : Nat) (state : InspectionState) :
    (admissionMachine Number budget limits allowNonFiniteNumbers).run [.exit source] state =
      .ok { state with ancestors := state.ancestors.erase source } := by
  rw [StackMachine.run_singleton]
  exact StackMachine.run_nil _

theorem accounts_entryFrames {Key : Type} {children : List (Key × ProgramValue Number)}
    {data : List (BoundedJsonValue Number)} {ancestors : List Nat} {depth identity : Nat}
    (hchildren : List.Forall₂
      (EntersAs limits budget allowNonFiniteNumbers (identity :: ancestors) depth)
      (children.map Prod.snd) data) (childPath : Key -> ScriptString) {state : InspectionState}
    (hancestors : state.ancestors = identity :: ancestors)
    (hwithin : Within (inputLimits limits) state.spent) :
    Accounts (inputLimits limits) admissionKind
      (state.spent + (data.map (graphTotals depth)).sum)
      { state.charge (data.map (graphTotals depth)).sum with ancestors }
      ((admissionMachine Number budget limits allowNonFiniteNumbers).run
        (entryFrames children childPath depth identity) state) := by
  have hframes : List.Forall₂
      (Spends (inputLimits limits) admissionKind InspectionState.spent
        (admissionMachine Number budget limits allowNonFiniteNumbers)
        (fun inner => inner.ancestors = identity :: ancestors) InspectionState.charge)
      (children.map fun child => AdmissionFrame.enter child.snd (childPath child.fst) depth)
      (data.map (graphTotals depth)) := by
    rw [List.forall₂_map_right_iff, List.forall₂_map_left_iff]
    rw [List.forall₂_map_left_iff] at hchildren
    exact hchildren.imp fun child _ hchild => hchild (childPath child.fst)
  have hwalk := accounts_frames InspectionState.charge_add (fun _ => rfl) hframes hancestors
    hwithin
  rw [entryFrames, StackMachine.run_append]
  rcases hwalk with ⟨hok, hpassed⟩ | ⟨failure, kind, herror, hkind, hexceeds⟩
  · refine Or.inl ⟨?_, hpassed⟩
    rw [hok]
    show (admissionMachine Number budget limits allowNonFiniteNumbers).run [.exit identity] _ = _
    rw [run_exitEntry]
    congr 2
    show state.ancestors.erase identity = ancestors
    rw [hancestors, List.erase_cons_head]
  · rw [herror]
    exact accounts_error hkind hexceeds

theorem accounts_enter {Key : Type} {value : ProgramValue Number}
    {children : List (Key × ProgramValue Number)} {data : List (BoundedJsonValue Number)}
    {ancestors : List Nat} {identity depth bytes : Nat} {path : ScriptString}
    (childPath : Key -> ScriptString) {state : InspectionState}
    (hancestors : state.ancestors = ancestors) (hfresh : identity ∉ ancestors)
    (htake : takeEntry budget limits allowNonFiniteNumbers value path depth state =
      if depth > limits.inputDepth then .error (inputDepthFailure limits path)
      else if state.ancestors.contains identity then
        .error (invalidFailure path "cyclic values are not JSON")
      else if state.bytes + bytes > limits.graphBytes then .error graphLimitFailure
      else .ok (entryFrames children childPath (depth + 1) identity,
        { ancestors := identity :: state.ancestors, bytes := state.bytes + bytes }))
    (hchildren : List.Forall₂
      (EntersAs limits budget allowNonFiniteNumbers (identity :: ancestors) (depth + 1))
      (children.map Prod.snd) data) :
    Accounts (inputLimits limits) admissionKind
      (state.spent + (inspected bytes depth + (data.map (graphTotals (depth + 1))).sum))
      (state.charge (inspected bytes depth + (data.map (graphTotals (depth + 1))).sum))
      ((admissionMachine Number budget limits allowNonFiniteNumbers).run [.enter value path depth]
        state) := by
  subst hancestors
  have htotal : state.spent + inspected bytes depth = inspected (state.bytes + bytes) depth := by
    ext
    · rfl
    · rfl
    · exact Nat.max_eq_right (Nat.zero_le _)
  have hcharged : Accounts (inputLimits limits) admissionKind (state.spent + inspected bytes depth)
      (entryFrames children childPath (depth + 1) identity,
        { state.charge (inspected bytes depth) with ancestors := identity :: state.ancestors })
      ((admissionMachine Number budget limits allowNonFiniteNumbers).take
        (.enter value path depth) state) := by
    show Accounts _ _ _ _ (takeEntry budget limits allowNonFiniteNumbers value path depth state)
    rw [htotal, htake]
    exact accounts_enterContainer hfresh
  apply accounts_take hcharged rfl
  intro hpassed
  rw [← InspectionState.charge_add]
  exact accounts_entryFrames hchildren childPath rfl (within_counted hpassed)

mutual

theorem entersAs_value (hbudget : IsBudget budget) :
    forall (value : ProgramValue Number) {data : BoundedJsonValue Number},
      value.json? = some data -> forall {ancestors : List Nat} {depth : Nat},
        value.IsAcyclic ancestors ->
          EntersAs limits budget allowNonFiniteNumbers ancestors depth value data
  | .null, data, hdata, ancestors, depth, _ => by
      apply entersAs_scalar hbudget hdata
      cases hdata
      rfl
  | .bool _, data, hdata, ancestors, depth, _ => by
      apply entersAs_scalar hbudget hdata
      cases hdata
      rfl
  | .string _, data, hdata, ancestors, depth, _ => by
      apply entersAs_scalar hbudget hdata
      cases hdata
      rfl
  | .number (.finite _), data, hdata, ancestors, depth, _ => by
      apply entersAs_scalar hbudget hdata
      cases hdata
      rfl
  | .number .negativeZero, data, hdata, ancestors, depth, _ => by
      apply entersAs_scalar hbudget hdata
      cases hdata
      rfl
  | .number .notFinite, data, hdata, ancestors, depth, _ => by cases hdata
  | .unsupported _, data, hdata, ancestors, depth, _ => by cases hdata
  | .array identity hasSymbols hiddenNames shownNames items, data, hdata, ancestors, depth,
      hacyclic => by
      rcases array_of_json hdata with ⟨rfl, rfl, rfl, others, hitems, rfl⟩
      intro path state hancestors hwithin
      refine ⟨hancestors, rfl, ?_⟩
      rw [← graphTotals_array, ← length_of_jsonOfItems hitems]
      have hchildren : List.Forall₂
          (EntersAs limits budget allowNonFiniteNumbers (identity :: ancestors) (depth + 1))
          ((heldItems 0 items).map Prod.snd) others :=
        entersAs_items hbudget items hitems hacyclic.right 0
      apply accounts_enter (itemPath path) hancestors hacyclic.left _ hchildren
      · show (if depth > limits.inputDepth then _ else if state.ancestors.contains identity then _
          else inspectArrayUnsafe limits identity false items path depth state) = _
        rw [inspectArrayUnsafe_data fun _ hitem => shown_of_jsonOfItems hitems hitem]
  | .object identity isPlain hasSymbols hiddenNames members, data, hdata, ancestors, depth,
      hacyclic => by
      rcases object_of_json hdata with ⟨rfl, rfl, others, hmembers, rfl⟩
      intro path state hancestors hwithin
      refine ⟨hancestors, rfl, ?_⟩
      have hkeys := keys_of_jsonOfMembers hmembers
      have hlength : members.length = others.length := by
        have hsame := congrArg List.length hkeys
        rwa [List.length_map, List.length_map] at hsame
      have hvalues : (others.map fun member => graphTotals (depth + 1) member.snd) =
          (others.map Prod.snd).map (graphTotals (depth + 1)) := by
        rw [List.map_map]
        rfl
      rw [← graphTotals_object, ← sum_keyBytes hkeys, ← hlength, hvalues]
      have hchildren : List.Forall₂
          (EntersAs limits budget allowNonFiniteNumbers (identity :: ancestors) (depth + 1))
          ((readMembers members).map Prod.snd) (others.map Prod.snd) :=
        entersAs_members hbudget members hmembers hacyclic.right
      apply accounts_enter (memberPath path) hancestors hacyclic.left _ hchildren
      · show (if depth > limits.inputDepth then _ else if state.ancestors.contains identity then _
          else inspectObjectUnsafe budget limits identity true false members path depth state) = _
        rw [inspectObjectUnsafe_data hbudget fun _ hmember =>
          data_of_jsonOfMembers hmembers hmember]

theorem entersAs_items (hbudget : IsBudget budget) :
    forall (items : List (Bool × OwnProperty (ProgramValue Number)))
      {data : List (BoundedJsonValue Number)}, jsonOfItems items = some data ->
        forall {ancestors : List Nat} {depth : Nat}, AreAcyclicItems ancestors items ->
          forall index, List.Forall₂ (EntersAs limits budget allowNonFiniteNumbers ancestors depth)
            ((heldItems index items).map Prod.snd) data
  | [], data, hdata, ancestors, depth, _, index => by
      cases hdata
      exact List.Forall₂.nil
  | (true, .data value) :: rest, data, hdata, ancestors, depth, hacyclic, index => by
      rw [jsonOfItems] at hdata
      rcases Option.bind_eq_some_iff.mp hdata with ⟨first, hfirst, hdata⟩
      rcases Option.bind_eq_some_iff.mp hdata with ⟨others, hothers, hdata⟩
      cases hdata
      exact List.Forall₂.cons (entersAs_value hbudget value hfirst hacyclic.left)
        (entersAs_items hbudget rest hothers hacyclic.right (index + 1))
  | (true, .accessor _) :: _, data, hdata, ancestors, depth, _, index => by cases hdata
  | (true, .missing) :: _, data, hdata, ancestors, depth, _, index => by cases hdata
  | (false, _) :: _, data, hdata, ancestors, depth, _, index => by cases hdata

theorem entersAs_members (hbudget : IsBudget budget) :
    forall (members : List (ScriptString × OwnProperty (ProgramValue Number)))
      {data : List (ScriptString × BoundedJsonValue Number)}, jsonOfMembers members = some data ->
        forall {ancestors : List Nat} {depth : Nat}, AreAcyclicMembers ancestors members ->
          List.Forall₂ (EntersAs limits budget allowNonFiniteNumbers ancestors depth)
            ((readMembers members).map Prod.snd) (data.map Prod.snd)
  | [], data, hdata, ancestors, depth, _ => by
      cases hdata
      exact List.Forall₂.nil
  | (_, .data value) :: rest, data, hdata, ancestors, depth, hacyclic => by
      rw [jsonOfMembers] at hdata
      rcases Option.bind_eq_some_iff.mp hdata with ⟨first, hfirst, hdata⟩
      rcases Option.bind_eq_some_iff.mp hdata with ⟨others, hothers, hdata⟩
      cases hdata
      exact List.Forall₂.cons (entersAs_value hbudget value hfirst hacyclic.left)
        (entersAs_members hbudget rest hothers hacyclic.right)
  | (_, .accessor _) :: _, data, hdata, ancestors, depth, _ => by cases hdata
  | (_, .missing) :: _, data, hdata, ancestors, depth, _ => by cases hdata

end

/-- Graph input that is JSON data is inspected to its snapshot and the bytes of its text. -/
theorem inspectDocument_accounts (hbudget : IsBudget budget) {value : ProgramValue Number}
    {data : BoundedJsonValue Number} (hdata : value.json? = some data)
    (hacyclic : value.IsAcyclic []) :
    Accounts (inputLimits limits) admissionKind (graphTotals 1 data)
      (value.snapshot, textBytes data)
      (inspectDocument budget limits allowNonFiniteNumbers value) := by
  have hvalue : EntersAs limits budget allowNonFiniteNumbers [] 1 value data :=
    entersAs_value hbudget value hdata hacyclic
  have hwalk := (hvalue rootPath { ancestors := [], bytes := 0 } rfl
    within_zero).right.right.map fun state => (value.snapshot, state.bytes)
  have hzero : InspectionState.spent { ancestors := [], bytes := 0 } = 0 := rfl
  rw [hzero, zero_add] at hwalk
  have hbytes : (InspectionState.charge { ancestors := [], bytes := 0 }
      (graphTotals 1 data)).bytes = textBytes data := Nat.zero_add _
  rw [hbytes] at hwalk
  exact hwalk

/-!
## Early ends
-/

omit [DecimalNumber Number] in
theorem checkMember_whole (hbudget : IsBudget budget) (path : ScriptString) (bytes : Nat)
    (member : ScriptString × OwnProperty (ProgramValue Number)) :
    checkMember budget limits path bytes member =
      checkMember (fun _ => none) limits path bytes member := by
  have hmeasures := exceeds_measured hbudget
    (measures_jsonStringByteLength member.fst (budget (remainingBytes limits bytes - 1)))
  have hleft : remainingBytes limits bytes = (limits.graphBytes : Int) - bytes := rfl
  rw [← jsonStringByteLength_none] at hmeasures
  rw [checkMember, checkMember]
  rcases hmeasures with hsame | ⟨hlength, hwhole⟩
  · rw [hsame]
  · rw [if_pos (by omega), if_pos (by omega)]

theorem primitiveLength_whole (value : ProgramValue Number) (stopAfterBytes : Option Int) :
    (primitiveLength allowNonFiniteNumbers value stopAfterBytes = none ∧
      primitiveLength allowNonFiniteNumbers value none = none) ∨
    exists length whole,
      primitiveLength allowNonFiniteNumbers value stopAfterBytes = some length ∧
        primitiveLength allowNonFiniteNumbers value none = some whole ∧
          Measures stopAfterBytes length whole := by
  have htext : forall text : List Char, exists length whole,
      some (utf8ByteLength (text.map .char) stopAfterBytes) = some length ∧
        some (utf8ByteLength (text.map .char) none) = some whole ∧
          Measures stopAfterBytes length whole := by
    intro text
    refine ⟨_, _, rfl, rfl, ?_⟩
    rw [utf8ByteLength_none]
    exact measures_utf8ByteLength text stopAfterBytes
  cases value with
  | null => exact Or.inr (htext _)
  | bool value => exact Or.inr (htext _)
  | string text =>
      refine Or.inr ⟨_, _, rfl, rfl, ?_⟩
      rw [jsonStringByteLength_none]
      exact measures_jsonStringByteLength text stopAfterBytes
  | number value =>
      rw [primitiveLength, primitiveLength]
      split
      · exact Or.inr (htext _)
      · exact Or.inl ⟨rfl, rfl⟩
  | unsupported typeName => exact Or.inl ⟨rfl, rfl⟩
  | array identity hasSymbols hiddenNames shownNames items => exact Or.inl ⟨rfl, rfl⟩
  | object identity isPlain hasSymbols hiddenNames members => exact Or.inl ⟨rfl, rfl⟩

theorem takeEntry_whole (hbudget : IsBudget budget) (value : ProgramValue Number)
    (path : ScriptString) (depth : Nat) (state : InspectionState) :
    takeEntry budget limits allowNonFiniteNumbers value path depth state =
      takeEntry (fun _ => none) limits allowNonFiniteNumbers value path depth state := by
  have hmember : (checkMember budget limits path :
      Nat -> ScriptString × OwnProperty (ProgramValue Number) -> Except AdmissionFailure Nat) =
        checkMember (fun _ => none) limits path := by
    funext bytes member
    exact checkMember_whole hbudget path bytes member
  have hobject : forall identity isPlain hasSymbols
      (members : List (ScriptString × OwnProperty (ProgramValue Number))),
        inspectObjectUnsafe budget limits identity isPlain hasSymbols members path depth state =
          inspectObjectUnsafe (fun _ => none) limits identity isPlain hasSymbols members path depth
            state := by
    intro identity isPlain hasSymbols members
    rw [inspectObjectUnsafe, inspectObjectUnsafe, hmember]
  rw [takeEntry.eq_def, takeEntry.eq_def]
  congr 1
  rcases primitiveLength_whole value (budget (remainingBytes limits state.bytes)) with
    ⟨hnone, hwhole⟩ | ⟨length, whole, hlength, hwhole, hmeasures⟩
  · rw [hnone, hwhole]
    cases value with
    | object identity isPlain hasSymbols hiddenNames members =>
        dsimp only
        rw [hobject]
    | _ => rfl
  · rw [hlength, hwhole]
    dsimp only
    have hleft : remainingBytes limits state.bytes = (limits.graphBytes : Int) - state.bytes := rfl
    rcases exceeds_measured hbudget hmeasures with hsame | ⟨hlong, hwhole⟩
    · rw [hsame]
    · rw [if_pos (by omega), if_pos (by omega)]

theorem inspectDocument_whole (hbudget : IsBudget budget) (value : ProgramValue Number) :
    inspectDocument budget limits allowNonFiniteNumbers value =
      inspectDocument (fun _ => none) limits allowNonFiniteNumbers value := by
  rw [inspectDocument, inspectDocument]
  congr 1
  apply StackMachine.run_congr
  intro frame state
  cases frame with
  | exit source => rfl
  | enter value path depth => exact takeEntry_whole hbudget value path depth state

end

end JsonBoundaries
end Pertexo
