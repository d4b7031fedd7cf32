import Pertexo.StoredValues.ParsedRecords

/-!
# Stored values are faithful

What is prepared for storage is read back from its text as it is, an inline value is accepted by
its text, its members and its depth, and inline values are equal when their canonical texts are.

## Fields of a record
-/

namespace Pertexo
namespace StoredValues

open Canonical
open JsonBoundaries
open Library
open Pages
open Pagination
open PortableText
open Portability
open Values

section

variable {Number : Type}

theorem readFields_ok {maximumFields : Nat}
    {members : List (ScriptString × OwnProperty (ProgramValue Number))}
    {fields final : List (ScriptString × ProgramValue Number)}
    (h : members.foldlM (readField maximumFields) fields = .ok final) :
    (forall member, member ∈ members -> exists value, member.snd = .data value) ∧
      final = fields ++ readMembers members := by
  induction members generalizing fields with
  | nil =>
      cases h
      refine ⟨fun member hmember => absurd hmember List.not_mem_nil, ?_⟩
      rw [readMembers, List.append_nil]
  | cons member rest ih =>
      rw [List.foldlM_cons] at h
      rcases exists_of_bind_eq_ok h with ⟨next, hnext, hrest⟩
      rcases ih hrest with ⟨hdata, hfinal⟩
      rcases member with ⟨key, property⟩
      cases property with
      | missing => cases hnext
      | accessor answer => cases hnext
      | data value =>
          have hstep : (if fields.length + 1 > maximumFields then
              Except.error StoredValueRefusal.contents
            else .ok (fields ++ [(key, value)])) = .ok next := hnext
          split at hstep
          · cases hstep
          · cases hstep
            constructor
            · intro other hother
              rcases List.mem_cons.mp hother with rfl | hmem
              · exact ⟨value, rfl⟩
              · exact hdata other hmem
            · rw [hfinal, List.append_assoc]
              rfl

theorem ownDataRecord_ok {value : ProgramValue Number} {maximumFields : Nat}
    {fields : List (ScriptString × ProgramValue Number)}
    (h : ownDataRecord value maximumFields = .ok fields) :
    exists identity members, value = .object identity true false 0 members ∧
      (forall member, member ∈ members -> exists held, member.snd = .data held) ∧
        fields = readMembers members := by
  cases value with
  | object identity isPlain hasSymbols hiddenNames members =>
      rw [ownDataRecord] at h
      split at h
      · cases h
      · next hplain =>
        rw [Bool.not_eq_true, Bool.not_eq_false'] at hplain
        rcases exists_of_bind_eq_ok h with ⟨found, hfound, h⟩
        rcases readFields_ok hfound with ⟨hdata, hfields⟩
        rw [List.nil_append] at hfields
        split at h
        · cases h
        · next hnames =>
          cases h
          rw [hfields, length_readMembers hdata] at hnames
          simp only [Bool.or_eq_true, bne_iff_ne, not_or, not_not, Bool.not_eq_true] at hnames
          have hhidden : hiddenNames = 0 := by omega
          rw [hplain, hnames.right, hhidden]
          exact ⟨identity, members, rfl, hdata, hfields⟩
  | null => cases h
  | bool value => cases h
  | number value => cases h
  | string text => cases h
  | unsupported typeName => cases h
  | array identity hasSymbols hiddenNames shownNames items => cases h

theorem isOwnOrdered_of_mem
    {members : List (ScriptString × OwnProperty (ProgramValue Number))}
    (hdata : forall member, member ∈ members -> exists value, member.snd = .data value)
    (h : AreOwnOrderedMembers members) {key : ScriptString} {value : ProgramValue Number}
    (hmem : (key, value) ∈ readMembers members) : value.IsOwnOrdered := by
  induction members with
  | nil => cases hmem
  | cons member rest ih =>
      rcases member with ⟨name, property⟩
      rcases hdata _ List.mem_cons_self with ⟨held, rfl⟩
      rw [readMembers] at hmem
      rcases List.mem_cons.mp hmem with hfirst | hrest
      · cases hfirst
        exact h.left
      · exact ih (fun other hother => hdata other (List.mem_cons_of_mem _ hother)) h.right hrest

theorem mem_of_lookup {fields : List (ScriptString × ProgramValue Number)} {key : ScriptString}
    {value : ProgramValue Number} (h : fields.lookup key = some value) : (key, value) ∈ fields := by
  rw [List.lookup_eq_some_iff] at h
  rcases h with ⟨before, after, rfl, _⟩
  exact List.mem_append_right _ List.mem_cons_self

mutual

theorem heap_isAcyclic : forall {value : ProgramValue Number} {ancestors : List Nat},
    value.IsAcyclic ancestors -> value.heap.IsAcyclic ancestors
  | .null, _, _ => trivial
  | .bool _, _, _ => trivial
  | .string _, _, _ => trivial
  | .number _, _, _ => trivial
  | .unsupported _, _, _ => trivial
  | .array _ _ _ _ _, _, h => ⟨h.left, itemSlots_areAcyclic h.right⟩
  | .object _ _ _ _ _, _, h => ⟨h.left, memberSlots_areAcyclic h.right⟩

theorem itemSlots_areAcyclic : forall {items : List (Bool × OwnProperty (ProgramValue Number))}
    {ancestors : List Nat}, JsonBoundaries.AreAcyclicItems ancestors items ->
      Canonical.AreAcyclicItems ancestors (itemSlots items)
  | [], _, _ => trivial
  | (_, .missing) :: rest, ancestors, h => @itemSlots_areAcyclic rest ancestors h
  | (_, .accessor _) :: rest, ancestors, h => @itemSlots_areAcyclic rest ancestors h
  | (_, .data _) :: _, _, h => ⟨heap_isAcyclic h.left, itemSlots_areAcyclic h.right⟩

theorem memberSlots_areAcyclic :
    forall {members : List (ScriptString × OwnProperty (ProgramValue Number))}
      {ancestors : List Nat}, JsonBoundaries.AreAcyclicMembers ancestors members ->
        Canonical.AreAcyclicMembers ancestors (memberSlots members)
  | [], _, _ => trivial
  | (_, .missing) :: rest, ancestors, h => @memberSlots_areAcyclic rest ancestors h
  | (_, .accessor _) :: rest, ancestors, h => @memberSlots_areAcyclic rest ancestors h
  | (_, .data _) :: _, _, h => ⟨heap_isAcyclic h.left, memberSlots_areAcyclic h.right⟩

end

variable [ScriptNumber Number]

theorem readInput_isOwnOrdered {value input : ProgramValue Number} (hordered : value.IsOwnOrdered)
    (h : readInput value = .ok input) : input.IsOwnOrdered := by
  cases value with
  | string text =>
      rw [readInput] at h
      split at h
      · cases h
      · split at h
        · cases h
        · next parsed hparsed =>
          cases h
          rcases Option.map_eq_some_iff.mp hparsed with ⟨tree, _, rfl⟩
          exact isOwnOrdered_programValue 0 _ (evaluate_ordered tree)
  | null =>
      cases h
      exact hordered
  | bool value =>
      cases h
      exact hordered
  | number value =>
      cases h
      exact hordered
  | unsupported typeName =>
      cases h
      exact hordered
  | array identity hasSymbols hiddenNames shownNames items =>
      cases h
      exact hordered
  | object identity isPlain hasSymbols hiddenNames members =>
      cases h
      exact hordered

/-- What a stored value keeps: an identifier, or data that may be written as it stands. -/
def StoredExecutionValue.IsKept : StoredExecutionValue Number -> Prop
  | .artifact artifactId => isUuidText artifactId = true
  | .inline data => data.Ordered ∧ IsStorable data ∧ IsWithinLimits data

theorem isKept_of_parse {value : ProgramValue Number} (hordered : value.IsOwnOrdered)
    {stored : StoredExecutionValue Number} (h : parseStoredExecutionValue value = .ok stored) :
    stored.IsKept := by
  rcases exists_of_bind_eq_ok h with ⟨input, hinput, h⟩
  rcases exists_of_bind_eq_ok h with ⟨fields, hfields, h⟩
  have hinputOrdered := readInput_isOwnOrdered hordered hinput
  rcases ownDataRecord_ok hfields with ⟨identity, members, rfl, hdata, rfl⟩
  split at h
  · split at h
    · -- an artifact
      rw [parseArtifact] at h
      split at h
      · cases h
      · split at h
        · split at h
          · next hid =>
            cases h
            exact hid
          · cases h
        · cases h
    · split at h
      · -- an inline value
        rw [parseInline] at h
        split at h
        · cases h
        · split at h
          · next inner hinner =>
            rcases exists_of_map_eq_ok h with ⟨data, hcopy, rfl⟩
            have hinnerOrdered := isOwnOrdered_of_mem hdata hinputOrdered.right
              (mem_of_lookup hinner)
            rcases (cloneInlineJson_iff hinnerOrdered).mp hcopy with ⟨hplain, hstorable, hlimits⟩
            exact ⟨ordered_of_json? hplain.holds hinnerOrdered, hstorable, hlimits⟩
          · cases h
      · cases h
  · cases h

/-!
## Records as they are written
-/

def kindKey : ScriptString :=
  scriptString "kind"

def valueKey : ScriptString :=
  scriptString "value"

def artifactIdKey : ScriptString :=
  scriptString "artifactId"

/-- The tree whose text is written for a stored value. -/
def recordTree : StoredExecutionValue Number -> BoundedJsonValue Number
  | .artifact artifactId =>
      .object [(artifactIdKey, .string artifactId), (kindKey, .string (scriptString "artifact"))]
  | .inline data => .object [(kindKey, .string (scriptString "inline")), (valueKey, data)]

theorem quoteText_kindKey : quoteText kindKey = ['"', 'k', 'i', 'n', 'd', '"'] := by
  rw [kindKey, scriptString_ofList]
  decide

theorem quoteText_valueKey : quoteText valueKey = ['"', 'v', 'a', 'l', 'u', 'e', '"'] := by
  rw [valueKey, scriptString_ofList]
  decide

theorem quoteText_artifactIdKey :
    quoteText artifactIdKey = ['"', 'a', 'r', 't', 'i', 'f', 'a', 'c', 't', 'I', 'd', '"'] := by
  rw [artifactIdKey, scriptString_ofList]
  decide

theorem quoteText_inline :
    quoteText (scriptString "inline") = ['"', 'i', 'n', 'l', 'i', 'n', 'e', '"'] := by
  rw [scriptString_ofList]
  decide

theorem quoteText_artifact :
    quoteText (scriptString "artifact") = ['"', 'a', 'r', 't', 'i', 'f', 'a', 'c', 't', '"'] := by
  rw [scriptString_ofList]
  decide

theorem storedValueJson_asWritten (stored : StoredExecutionValue Number) :
    storedValueJson stored .asWritten = .ok (stringify (recordTree stored)) := by
  cases stored with
  | artifact artifactId =>
      rw [storedValueJson, recordTree, stringify, stringifyMembers, stringifyMembers,
        stringifyMembers, stringify, stringify, quoteText_kindKey, quoteText_artifactIdKey,
        quoteText_artifact]
      congr 1
      simp [commaJoin]
  | inline data =>
      rw [storedValueJson, serializeJson_asWritten, recordTree, stringify, stringifyMembers,
        stringifyMembers, stringifyMembers, stringify, quoteText_kindKey, quoteText_valueKey,
        quoteText_inline]
      simp [commaJoin]

omit [ScriptNumber Number] in
theorem ownOrder_pair {first second : ScriptString} (h : comesBefore first second = true)
    (left right : BoundedJsonValue Number) : OwnOrder [(first, left), (second, right)] :=
  List.pairwise_pair.mpr h

theorem ordered_recordTree {stored : StoredExecutionValue Number} (h : stored.IsKept) :
    (recordTree stored).Ordered := by
  have hkind : comesBefore kindKey valueKey = true := by
    rw [kindKey, valueKey, scriptString_ofList, scriptString_ofList]
    decide
  have hartifact : comesBefore artifactIdKey kindKey = true := by
    rw [artifactIdKey, kindKey, scriptString_ofList, scriptString_ofList]
    decide
  cases stored with
  | artifact artifactId => exact ⟨ownOrder_pair hartifact _ _, trivial, trivial, trivial⟩
  | inline data => exact ⟨ownOrder_pair hkind _ _, trivial, h.left, trivial⟩

theorem jsonPointBytes_le (point : CodePoint) : jsonPointBytes point ≤ 6 * point.units.length := by
  cases point with
  | lone unit => exact Nat.le_refl 6
  | char c =>
      have hunits : 0 < (charUnits c).length := by
        rw [charUnits]
        split
        · exact Nat.one_pos
        · exact Nat.two_pos
      have hbytes : jsonPointBytes (.char c) ≤ 6 := by
        rw [jsonPointBytes, scalarUtf8Bytes]
        split
        · decide
        · split
          · decide
          · split
            · decide
            · split
              · decide
              · split
                · decide
                · decide
      show jsonPointBytes (.char c) ≤ 6 * (charUnits c).length
      omega

theorem bytes_quoteText_le (text : ScriptString) :
    Values.utf8ByteLength (quoteText text) ≤ 2 + 6 * text.length := by
  have hpoints : forall points : List CodePoint, (points.map jsonPointBytes).sum ≤
      6 * (points.flatMap CodePoint.units).length := by
    intro points
    induction points with
    | nil => exact Nat.le_refl 0
    | cons point rest ih =>
        have hpoint := jsonPointBytes_le point
        rw [List.map_cons, List.sum_cons, List.flatMap_cons, List.length_append]
        omega
  have htext := hpoints (codePoints text)
  rw [units_codePoints] at htext
  rw [bytes_quoteText]
  exact Nat.add_le_add_left htext 2

theorem length_of_isUuidText {text : ScriptString} (h : isUuidText text = true) :
    text.length = 36 := by
  rw [isUuidText, isUuid, String.toList_ofList, Bool.and_eq_true, List.length_map] at h
  exact beq_iff_eq.mp h.left

/-- The text of a stored value is well within what is read back from the database. -/
theorem textBytes_recordTree {stored : StoredExecutionValue Number} (h : stored.IsKept) :
    3 * textBytes (recordTree stored) ≤ executionJsonbDatabaseBackstopBytes := by
  have hmember : forall (key : ScriptString) (value : BoundedJsonValue Number),
      memberBytes (key, value) = Values.utf8ByteLength (quoteText key) + 1 + textBytes value :=
    fun _ _ => rfl
  have htext : forall text : ScriptString,
      textBytes (.string text : BoundedJsonValue Number) =
        Values.utf8ByteLength (quoteText text) := fun _ => rfl
  have hkind : Values.utf8ByteLength (quoteText kindKey) = 6 := by
    rw [quoteText_kindKey]
    decide
  rw [executionJsonbDatabaseBackstopBytes]
  cases stored with
  | artifact artifactId =>
      have hid := bytes_quoteText_le artifactId
      have hartifact : Values.utf8ByteLength (quoteText (scriptString "artifact")) = 10 := by
        rw [quoteText_artifact]
        decide
      have hkey : Values.utf8ByteLength (quoteText artifactIdKey) = 12 := by
        rw [quoteText_artifactIdKey]
        decide
      rw [length_of_isUuidText h] at hid
      rw [recordTree, textBytes_object, List.map_cons, List.map_cons, List.map_nil, List.sum_cons,
        List.sum_cons, List.sum_nil, hmember, hmember, htext, htext, hkind, hkey, hartifact]
      show 3 * (2 + _ + 1) ≤ _
      omega
  | inline data =>
      have hdata : textBytes data ≤ 262144 := h.right.right.bytes
      have hinline : Values.utf8ByteLength (quoteText (scriptString "inline")) = 8 := by
        rw [quoteText_inline]
        decide
      have hkey : Values.utf8ByteLength (quoteText valueKey) = 7 := by
        rw [quoteText_valueKey]
        decide
      rw [recordTree, textBytes_object, List.map_cons, List.map_cons, List.map_nil, List.sum_cons,
        List.sum_cons, List.sum_nil, hmember, hmember, htext, hkind, hkey, hinline]
      show 3 * (2 + _ + 1) ≤ _
      omega

/-!
## Records in memory
-/

/-- The members of an inline record, in either order. -/
def IsInlineRecord (record value : ProgramValue Number) : Prop :=
  exists identity,
    record = .object identity true false 0
      [(kindKey, .data (.string (scriptString "inline"))), (valueKey, .data value)] ∨
    record = .object identity true false 0
      [(valueKey, .data value), (kindKey, .data (.string (scriptString "inline")))]

theorem key_distinct : (kindKey == valueKey) = false ∧ (valueKey == kindKey) = false ∧
    (kindKey == artifactIdKey) = false := by
  rw [kindKey, valueKey, artifactIdKey, scriptString_ofList, scriptString_ofList,
    scriptString_ofList]
  decide

theorem kind_distinct : (scriptString "inline" == scriptString "artifact") = false := by
  rw [scriptString_ofList, scriptString_ofList]
  decide

theorem parse_of_fields {value input : ProgramValue Number}
    {fields : List (ScriptString × ProgramValue Number)} (hinput : readInput value = .ok input)
    (hfields : ownDataRecord input 2 = .ok fields) {kind : ScriptString}
    (hkind : fields.lookup kindKey = some (.string kind)) :
    parseStoredExecutionValue value =
      if kind == scriptString "artifact" then parseArtifact fields
      else if kind == scriptString "inline" then parseInline fields
      else .error .contents := by
  rw [kindKey] at hkind
  rw [parseStoredExecutionValue, hinput]
  show (ownDataRecord input 2 >>= _) = _
  rw [hfields]
  simp only [bind, Except.bind, hkind]

theorem parse_inline {value input inner : ProgramValue Number}
    {fields : List (ScriptString × ProgramValue Number)} (hinput : readInput value = .ok input)
    (hfields : ownDataRecord input 2 = .ok fields) (hlength : fields.length = 2)
    (hkind : fields.lookup kindKey = some (.string (scriptString "inline")))
    (hvalue : fields.lookup valueKey = some inner) :
    parseStoredExecutionValue value = (cloneInlineJson inner).map .inline := by
  rw [valueKey] at hvalue
  rw [parse_of_fields hinput hfields hkind, kind_distinct, if_neg (by decide), beq_self_eq_true,
    if_pos rfl, parseInline, hlength, if_neg (by decide), hvalue]

theorem parse_artifact {value input : ProgramValue Number} {artifactId : ScriptString}
    {fields : List (ScriptString × ProgramValue Number)} (hinput : readInput value = .ok input)
    (hfields : ownDataRecord input 2 = .ok fields) (hlength : fields.length = 2)
    (hkind : fields.lookup kindKey = some (.string (scriptString "artifact")))
    (hid : fields.lookup artifactIdKey = some (.string artifactId))
    (huuid : isUuidText artifactId = true) :
    parseStoredExecutionValue value = .ok (.artifact artifactId) := by
  rw [artifactIdKey] at hid
  rw [parse_of_fields hinput hfields hkind, beq_self_eq_true, if_pos rfl, parseArtifact, hlength,
    if_neg (by decide), hid]
  exact if_pos huuid

omit [ScriptNumber Number] in
theorem lookup_pair {first second : ScriptString} (h : (second == first) = false)
    (left right : ProgramValue Number) :
    List.lookup first [(first, left), (second, right)] = some left ∧
      List.lookup second [(first, left), (second, right)] = some right := by
  constructor
  · rw [List.lookup_cons, beq_self_eq_true]
  · rw [List.lookup_cons, h, List.lookup_cons, beq_self_eq_true]

theorem parse_inlineRecord {record value : ProgramValue Number} (h : IsInlineRecord record value) :
    parseStoredExecutionValue record = (cloneInlineJson value).map .inline := by
  rcases h with ⟨identity, rfl | rfl⟩
  · have hfields : ownDataRecord (.object identity true false 0
        [(kindKey, .data (.string (scriptString "inline"))), (valueKey, .data value)]) 2 =
          .ok [(kindKey, .string (scriptString "inline")), (valueKey, value)] := rfl
    have hlookup := lookup_pair key_distinct.right.left (.string (scriptString "inline")) value
    exact parse_inline rfl hfields rfl hlookup.left hlookup.right
  · have hfields : ownDataRecord (.object identity true false 0
        [(valueKey, .data value), (kindKey, .data (.string (scriptString "inline")))]) 2 =
          .ok [(valueKey, value), (kindKey, .string (scriptString "inline"))] := rfl
    have hlookup := lookup_pair key_distinct.left value (.string (scriptString "inline"))
    exact parse_inline rfl hfields rfl hlookup.right hlookup.left

/-!
## Records read from their texts
-/

theorem readInput_stringify {tree : BoundedJsonValue Number} (hordered : tree.Ordered)
    (hsize : 3 * textBytes tree ≤ executionJsonbDatabaseBackstopBytes) :
    readInput (.string (textUnits (stringify tree))) = .ok (programValue 0 (parsedTree tree)) := by
  have hunits := utf8ByteLength_codePoints_le (textUnits (stringify tree))
  have hlength : (textUnits (stringify tree)).length ≤ textBytes tree :=
    length_textUnits_le (stringify tree)
  rw [readInput, if_neg (by omega), parseText_stringify hordered]

/-- What is kept is read back from the text that is written for it. -/
theorem parse_written {stored : StoredExecutionValue Number} (h : stored.IsKept) :
    parseStoredExecutionValue (.string (textUnits (stringify (recordTree stored)))) =
      .ok stored := by
  have hinput := readInput_stringify (ordered_recordTree h) (textBytes_recordTree h)
  cases stored with
  | artifact artifactId =>
      have hfields : ownDataRecord
          (programValue 0 (parsedTree (recordTree (.artifact artifactId)))) 2 =
            .ok [(artifactIdKey, (.string artifactId : ProgramValue Number)),
              (kindKey, .string (scriptString "artifact"))] := rfl
      have hlookup := lookup_pair key_distinct.right.right
        (.string artifactId : ProgramValue Number) (.string (scriptString "artifact"))
      exact parse_artifact hinput hfields rfl hlookup.right hlookup.left h
  | inline data =>
      have hfields : ownDataRecord (programValue 0 (parsedTree (recordTree (.inline data)))) 2 =
          .ok [(kindKey, .string (scriptString "inline")),
            (valueKey, programValue 1 (parsedTree data))] := rfl
      have hlookup := lookup_pair key_distinct.right.left (.string (scriptString "inline"))
        (programValue 1 (parsedTree data))
      have hcopy := (cloneInlineJson_plain (isPlainJson_programValue 1 data) h.left).mpr
        ⟨rfl, h.right⟩
      rw [parse_inline hinput hfields rfl hlookup.left hlookup.right, hcopy]
      rfl

theorem prepare_ok {value : ProgramValue Number} {stored : StoredExecutionValue Number}
    {json : List Char} (h : prepareStoredExecutionValue value = .ok (stored, json)) :
    parseStoredExecutionValue value = .ok stored ∧ json = stringify (recordTree stored) := by
  rcases exists_of_bind_eq_ok h with ⟨parsed, hparsed, h⟩
  rw [storedValueJson_asWritten] at h
  cases h
  exact ⟨hparsed, rfl⟩

/-!
## Equal values
-/

theorem isJsonValue_of_kept {value : ProgramValue Number} {data : BoundedJsonValue Number}
    (hdata : value.json? = some data) (hacyclic : value.IsAcyclic [])
    (h : (StoredExecutionValue.inline data).IsKept) : IsJsonValue value.heap data where
  holds := (heap_json? (isEnumerable_of_json? hdata)).trans hdata
  acyclic := heap_isAcyclic hacyclic
  ordered := h.left
  fits := (height_le_depth data).trans (h.right.right.depth.trans (by decide))

theorem not_isNull_of_parse {value : ProgramValue Number} {stored : StoredExecutionValue Number}
    (h : parseStoredExecutionValue value = .ok stored) : isNull value = false := by
  cases value with
  | null => cases h
  | _ => rfl

theorem storedValueJson_canonical (data : BoundedJsonValue Number) :
    storedValueJson (.inline data) .canonical =
      .ok ("\x7b\"kind\":\"inline\",\"value\":".toList ++ stringify (arranged true data) ++
        "\x7d".toList) := by
  rw [storedValueJson, serializeJson_canonical]
  rfl

/-- Two inline values are equal when their sorted texts are. -/
theorem storedExecutionValuesEqual_inline {left right : ProgramValue Number}
    {leftData rightData : BoundedJsonValue Number}
    (hleft : parseStoredExecutionValue left = .ok (.inline leftData))
    (hright : parseStoredExecutionValue right = .ok (.inline rightData)) :
    storedExecutionValuesEqual left right =
      .ok (stringify (arranged true leftData) == stringify (arranged true rightData)) := by
  rw [storedExecutionValuesEqual, not_isNull_of_parse hleft, not_isNull_of_parse hright,
    if_neg (by decide), hleft, hright]
  show (storedValueJson (.inline leftData) .canonical >>= fun leftJson =>
    storedValueJson (.inline rightData) .canonical >>= fun rightJson =>
      Except.ok (leftJson == rightJson)) = _
  rw [storedValueJson_canonical, storedValueJson_canonical]
  show Except.ok _ = Except.ok _
  congr 1
  rw [Bool.eq_iff_iff, beq_iff_eq, beq_iff_eq, List.append_cancel_right_eq,
    List.append_cancel_left_eq]

/-!
## Storage
-/

/-- An inline record is accepted exactly when its value is plain JSON data that is storable and
within the limits, whichever order its text is written in. -/
theorem accepted_iff {value record : ProgramValue Number} (hordered : value.IsOwnOrdered)
    (hrecord : IsInlineRecord record value) (order : KeyOrder)
    {stored : StoredExecutionValue Number} :
    parseStoredExecutionValue record = .ok stored ↔
      exists data text, stored = .inline data ∧ IsPlainJson value data ∧
        serializeJson data order = .ok text ∧ IsStorable data ∧
          Values.utf8ByteLength text ≤ storedExecutionValueLimits.inlineBytes ∧
            data.memberCount ≤ storedExecutionValueLimits.members ∧
              data.depth ≤ storedExecutionValueLimits.depth := by
  rw [parse_inlineRecord hrecord]
  constructor
  · intro h
    rcases exists_of_map_eq_ok h with ⟨data, hcopy, rfl⟩
    rcases (cloneInlineJson_iff hordered).mp hcopy with ⟨hplain, hstorable, hlimits⟩
    have hbytes := textBytes_arranged (order == .canonical) data
    refine ⟨data, _, rfl, hplain, serializeJson_eq data order, hstorable, ?_, hlimits.members,
      hlimits.depth⟩
    show textBytes _ ≤ _
    rw [hbytes]
    exact hlimits.bytes
  · intro ⟨data, text, hstored, hplain, htext, hstorable, hbytes, hmembers, hdepth⟩
    rw [serializeJson_eq] at htext
    cases htext
    have hsame : textBytes (arranged (order == .canonical) data) ≤ _ := hbytes
    rw [textBytes_arranged] at hsame
    rw [(cloneInlineJson_iff hordered).mpr ⟨hplain, hstorable, hsame, hmembers, hdepth⟩, hstored]
    rfl

/-- A prepared value is read back from its text as it is. An inline value is accepted when it is
plain JSON data with storable texts whose own text, members and depth are within the limits.
Accepted inline values are equal when their canonical texts are. -/
theorem stored_faithfully :
    (forall (value : ProgramValue Number) (stored : StoredExecutionValue Number)
      (json : List Char), value.IsOwnOrdered ->
        prepareStoredExecutionValue value = .ok (stored, json) ->
          parseStoredExecutionValue (.string (textUnits json)) = .ok stored) ∧
    (forall (value record : ProgramValue Number) (order : KeyOrder)
      (stored : StoredExecutionValue Number), value.IsOwnOrdered -> IsInlineRecord record value ->
        (parseStoredExecutionValue record = .ok stored ↔
          exists data text, stored = .inline data ∧ IsPlainJson value data ∧
            serializeJson data order = .ok text ∧ IsStorable data ∧
              Values.utf8ByteLength text ≤ storedExecutionValueLimits.inlineBytes ∧
                data.memberCount ≤ storedExecutionValueLimits.members ∧
                  data.depth ≤ storedExecutionValueLimits.depth)) ∧
    forall (left right leftValue rightValue : ProgramValue Number)
      (leftData rightData : BoundedJsonValue Number), left.IsOwnOrdered -> right.IsOwnOrdered ->
        parseStoredExecutionValue left = .ok (.inline leftData) ->
        parseStoredExecutionValue right = .ok (.inline rightData) ->
        leftValue.json? = some leftData -> leftValue.IsAcyclic [] ->
        rightValue.json? = some rightData -> rightValue.IsAcyclic [] ->
          exists leftText rightText, canonicalJson leftValue.heap = .ok leftText ∧
            canonicalJson rightValue.heap = .ok rightText ∧
              storedExecutionValuesEqual left right = .ok (leftText == rightText) := by
  refine ⟨?_, ?_, ?_⟩
  · intro value stored json hordered hprepared
    rcases prepare_ok hprepared with ⟨hparsed, rfl⟩
    exact parse_written (isKept_of_parse hordered hparsed)
  · intro value record order stored hordered hrecord
    exact accepted_iff hordered hrecord order
  · intro left right leftValue rightValue leftData rightData hleftOrdered hrightOrdered hleft hright
      hleftJson hleftAcyclic hrightJson hrightAcyclic
    have hleftKept := isKept_of_parse hleftOrdered hleft
    have hrightKept := isKept_of_parse hrightOrdered hright
    have hsorted := stringify_arranged_iff hleftKept.left hrightKept.left
    have hcanonical := stringify_rebuilt_iff hleftKept.left hrightKept.left
    refine ⟨_, _, (isJsonValue_of_kept hleftJson hleftAcyclic hleftKept).canonicalJson_eq,
      (isJsonValue_of_kept hrightJson hrightAcyclic hrightKept).canonicalJson_eq, ?_⟩
    rw [storedExecutionValuesEqual_inline hleft hright]
    congr 1
    rw [Bool.eq_iff_iff, beq_iff_eq, beq_iff_eq, hsorted, hcanonical]

end

def sampleObject (first second : ScriptString × NumberValue Nat) : ProgramValue Nat :=
  .object 1 true false 0
    [(first.fst, .data (.number first.snd)), (second.fst, .data (.number second.snd))]

def sampleRecord (value : ProgramValue Nat) : ProgramValue Nat :=
  .object 0 true false 0
    [(kindKey, .data (.string (scriptString "inline"))), (valueKey, .data value)]

theorem stored_faithfully_sample :
    (exists stored json,
      prepareStoredExecutionValue
          (sampleRecord (sampleObject ([98], .finite 7) ([97], .negativeZero))) =
        .ok (stored, json) ∧
      parseStoredExecutionValue (.string (textUnits json)) = .ok stored) ∧
    storedExecutionValuesEqual
        (sampleRecord (sampleObject ([98], .finite 7) ([97], .negativeZero)))
        (sampleRecord (sampleObject ([97], .finite 0) ([98], .finite 7))) = .ok true := by
  let left : ProgramValue Nat := sampleObject ([98], .finite 7) ([97], .negativeZero)
  let right : ProgramValue Nat := sampleObject ([97], .finite 0) ([98], .finite 7)
  let leftData : BoundedJsonValue Nat := .object [([98], .number 7), ([97], .number 0)]
  let rightData : BoundedJsonValue Nat := .object [([97], .number 0), ([98], .number 7)]
  have hkeys : comesBefore kindKey valueKey = true := by
    rw [kindKey, valueKey, scriptString_ofList, scriptString_ofList]
    decide
  have hrecordOrdered : forall value : ProgramValue Nat, value.IsOwnOrdered ->
      (sampleRecord value).IsOwnOrdered := by
    intro value hvalue
    exact ⟨List.pairwise_pair.mpr hkeys, trivial, hvalue, trivial⟩
  have hleftOrdered : left.IsOwnOrdered :=
    ⟨List.pairwise_pair.mpr (by decide), trivial, trivial, trivial⟩
  have hrightOrdered : right.IsOwnOrdered :=
    ⟨List.pairwise_pair.mpr (by decide), trivial, trivial, trivial⟩
  have hleftPlain : IsPlainJson left leftData :=
    ⟨rfl, ⟨rfl, trivial, trivial, trivial⟩, List.not_mem_nil, trivial, trivial, trivial⟩
  have hrightPlain : IsPlainJson right rightData :=
    ⟨rfl, ⟨rfl, trivial, trivial, trivial⟩, List.not_mem_nil, trivial, trivial, trivial⟩
  have hleftStorable : IsStorable leftData :=
    ⟨⟨by decide, trivial⟩, ⟨by decide, trivial⟩, trivial⟩
  have hrightStorable : IsStorable rightData :=
    ⟨⟨by decide, trivial⟩, ⟨by decide, trivial⟩, trivial⟩
  have hleft : parseStoredExecutionValue (sampleRecord left) = .ok (.inline leftData) := by
    apply (stored_faithfully.right.left left _ .asWritten _ hleftOrdered ⟨0, Or.inl rfl⟩).mpr
    exact ⟨leftData, _, rfl, hleftPlain, serializeJson_asWritten leftData, hleftStorable,
      by decide, by decide, by decide⟩
  have hright : parseStoredExecutionValue (sampleRecord right) = .ok (.inline rightData) := by
    apply (stored_faithfully.right.left right _ .asWritten _ hrightOrdered ⟨0, Or.inl rfl⟩).mpr
    exact ⟨rightData, _, rfl, hrightPlain, serializeJson_asWritten rightData, hrightStorable,
      by decide, by decide, by decide⟩
  have hprepared : prepareStoredExecutionValue (sampleRecord left) =
      .ok (.inline leftData, stringify (recordTree (.inline leftData))) := by
    rw [prepareStoredExecutionValue, hleft]
    show (storedValueJson (.inline leftData) .asWritten >>= _) = _
    rw [storedValueJson_asWritten]
    rfl
  constructor
  · exact ⟨_, _, hprepared,
      stored_faithfully.left _ _ _ (hrecordOrdered left hleftOrdered) hprepared⟩
  · rcases stored_faithfully.right.right _ _ left right leftData rightData
      (hrecordOrdered left hleftOrdered) (hrecordOrdered right hrightOrdered) hleft hright
      hleftPlain.holds hleftPlain.acyclic hrightPlain.holds hrightPlain.acyclic with
        ⟨leftText, rightText, hleftText, hrightText, hequal⟩
    have hsame : canonicalJson left.heap = canonicalJson right.heap := by rfl
    rw [hleftText, hrightText] at hsame
    cases hsame
    rw [beq_self_eq_true] at hequal
    exact hequal

/-- The zero character is within every limit, and it is not stored. -/
theorem zero_character_refused :
    ¬ forall (value record : ProgramValue Nat) (data : BoundedJsonValue Nat),
      value.IsOwnOrdered -> IsPlainJson value data -> IsInlineRecord record value ->
        ((exists stored, parseStoredExecutionValue record = .ok stored) ↔
          exists text, serializeJson data .asWritten = .ok text ∧
            Values.utf8ByteLength text ≤ storedExecutionValueLimits.inlineBytes ∧
              data.memberCount ≤ storedExecutionValueLimits.members ∧
                data.depth ≤ storedExecutionValueLimits.depth) := by
  intro h
  have hplain : IsPlainJson (.string [0] : ProgramValue Nat) (.string [0]) :=
    ⟨rfl, trivial, trivial⟩
  have hrecord : IsInlineRecord (sampleRecord (.string [0])) (.string [0]) := ⟨0, Or.inl rfl⟩
  have hordered : (ProgramValue.string [0] : ProgramValue Nat).IsOwnOrdered := trivial
  rcases (h _ _ _ hordered hplain hrecord).mpr
    ⟨_, serializeJson_asWritten _, by decide, by decide, by decide⟩ with ⟨stored, hstored⟩
  rcases (accepted_iff hordered hrecord .asWritten).mp hstored with
    ⟨data, text, _, hfound, _, hstorable, _⟩
  have hdata : some (BoundedJsonValue.string [0]) = some data := hfound.holds
  cases hdata
  exact hstorable.right List.mem_cons_self

end StoredValues
end Pertexo
