import Pertexo.Preflight.PlainSchemas

/-!
# Keys of configs, mappings and literals

A literal, a config and the names of a mapping keep every own key. Around them an own
`__proto__` is lost.
-/

namespace Pertexo
namespace Preflight

open Canonical
open Library
open Portability
open Values

section

variable {Number : Type}

def keptSource : GraphValue Number -> GraphValue Number
  | .object members =>
      if isLiteral members then
        .object ((members.filter fun member => keepsKey member.fst).map fun member =>
          (member.fst, if member.fst == scriptString "value" then member.snd
            else copyValue member.snd))
      else copyValue (.object members)
  | source => source

def keptMappings : GraphValue Number -> GraphValue Number
  | .object members => .object (members.map fun member => (member.fst, keptSource member.snd))
  | mappings => mappings

def keptCallable : GraphValue Number -> GraphValue Number
  | .object members =>
      .object ((members.filter fun member => keepsKey member.fst).map fun member =>
        (member.fst, if member.fst == scriptString "result" then keptSource member.snd
          else copyValue member.snd))
  | callable => callable

def keptField (key : ScriptString) (value : GraphValue Number) : GraphValue Number :=
  if key == scriptString "config" then value
  else if key == scriptString "inputMappings" then keptMappings value
  else copyValue value

theorem own_of_all {key : ScriptString} {members : GraphMembers Number}
    {value : GraphValue Number} (hthere : exists member, member ∈ members ∧ member.fst = key)
    (hall : forall member, member ∈ members -> member.fst = key -> member.snd = value) :
    own key members = some value := by
  cases hown : members.find? fun member => member.fst == key with
  | none =>
      rcases hthere with ⟨member, hmember, hkey⟩
      exact absurd (beq_iff_eq.mpr hkey) (List.find?_eq_none.mp hown member hmember)
  | some member =>
      have hkey : member.fst = key := by simpa using List.find?_some hown
      rw [own, hown]
      exact congrArg some (hall member (List.mem_of_find?_eq_some hown) hkey)

theorem own_map {key : ScriptString} {members : GraphMembers Number}
    {change : ScriptString -> GraphValue Number -> GraphValue Number}
    (hchange : forall value, change key value = value) :
    own key (members.map fun member => (member.fst, change member.fst member.snd)) =
      own key members := by
  induction members with
  | nil => rfl
  | cons member rest ih =>
      rcases member with ⟨name, value⟩
      rw [own, own, List.map_cons, List.find?_cons, List.find?_cons]
      cases hname : name == key with
      | true =>
          rw [beq_iff_eq] at hname
          dsimp only
          rw [hname, hchange]
      | false => exact ih

section

variable [GraphNumber Number] {library : SchemaLibrary}

/-!
## Value sources
-/

def needsObject : SchemaName Number -> Bool
  | .graph => true
  | .body => true
  | .node => true
  | .structured => true
  | .source => true
  | .config => true
  | .inputMappings => true
  | .callable => true
  | _ => false

theorem object_of_parse {value result : GraphValue Number} {name : SchemaName Number}
    (hname : needsObject name = true) (h : parse library value name = some result) :
    exists members, value = .object members := by
  have hscalar : forall value : GraphValue Number, parseScalar value name = none := by
    intro value
    cases name with
    | scalar accepts => cases hname
    | json => cases hname
    | _ => rfl
  cases value with
  | object members => exact ⟨members, rfl⟩
  | array items =>
      have hshape : arrayShape name = .refused := by
        cases name with
        | json => cases hname
        | nodes isBody => cases hname
        | edges isBody => cases hname
        | identifiers => cases hname
        | properties => cases hname
        | notes => cases hname
        | _ => rfl
      rw [parse, hshape] at h
      cases h
  | null =>
      rw [parse, hscalar] at h
      cases h
  | bool value =>
      rw [parse, hscalar] at h
      cases h
  | number value =>
      rw [parse, hscalar] at h
      cases h
  | string text =>
      rw [parse, hscalar] at h
      cases h

theorem names_ne_value :
    scriptString "kind" ≠ scriptString "value" ∧ scriptString "name" ≠ scriptString "value" ∧
      scriptString "path" ≠ scriptString "value" ∧ scriptString "nodeId" ≠ scriptString "value" ∧
        scriptString "language" ≠ scriptString "value" ∧
          scriptString "expression" ≠ scriptString "value" ∧
            scriptString "port" ≠ scriptString "value" := by
  decide

omit [GraphNumber Number] in
theorem sourceFields_eq_some {kind : ScriptString} {fields : List (SchemaField Number)}
    (h : sourceFields kind = some fields) :
    (exists rest, fields = required "kind" (text fun text => text == kind) :: rest) ∧
      forall field, field ∈ fields ->
        isPlain field.schema = true ∧ field.name ≠ scriptString "value" ∨
          kind = scriptString "literal" ∧ field = required "value" .json := by
  rw [sourceFields] at h
  split at h
  · next hkind =>
    cases h
    rw [beq_iff_eq.mp hkind]
    exact ⟨⟨_, rfl⟩, by simp [required, literal, text, isPlain, names_ne_value]⟩
  · split at h
    · next hkind =>
      cases h
      rw [beq_iff_eq.mp hkind]
      exact ⟨⟨_, rfl⟩, by simp [required, literal, text, isPlain, names_ne_value]⟩
    · split at h
      · next hkind =>
        cases h
        rw [beq_iff_eq.mp hkind]
        exact ⟨⟨_, rfl⟩, by simp [required, literal, anyText, text, isPlain, names_ne_value]⟩
      · split at h
        · next hkind =>
          cases h
          rw [beq_iff_eq.mp hkind]
          exact ⟨⟨_, rfl⟩, by
            simp [required, literal, identifier, anyText, text, isPlain, names_ne_value]⟩
        · split at h
          · next hkind =>
            cases h
            rw [beq_iff_eq.mp hkind]
            exact ⟨⟨_, rfl⟩, by
              simp [required, literal, identifier, anyText, text, isPlain, names_ne_value]⟩
          · split at h
            · next hkind =>
              cases h
              rw [beq_iff_eq.mp hkind]
              exact ⟨⟨_, rfl⟩, by simp [required, literal, anyText, text, isPlain, names_ne_value]⟩
            · split at h
              · next hkind =>
                cases h
                rw [beq_iff_eq.mp hkind]
                exact ⟨⟨_, rfl⟩, by
                  simp [required, literal, identifier, anyText, text, isPlain, names_ne_value]⟩
              · cases h

omit [GraphNumber Number] in
theorem union_cases (members : GraphMembers Number) (discriminator : String)
    (variants : ScriptString -> Option (List (SchemaField Number))) :
    ObjectShape.union members discriminator variants = .refused ∨
      exists kind fields, own (scriptString discriminator) members = some (.string kind) ∧
        variants kind = some fields ∧
          ObjectShape.union members discriminator variants = .strict fields := by
  rw [ObjectShape.union]
  split
  · next kind hkind =>
    split
    · next fields hfields => exact Or.inr ⟨kind, fields, hkind, hfields, rfl⟩
    · exact Or.inl rfl
  · exact Or.inl rfl

theorem eq_of_parse_text {accepts : ScriptString -> Bool} {value result : GraphValue Number}
    (h : parse library value (text accepts) = some result) :
    exists text, result = .string text ∧ accepts text = true := by
  have hsame := parse_scalar h
  rw [hsame] at h ⊢
  cases value with
  | string content =>
      refine ⟨content, rfl, ?_⟩
      rw [parse, text, parseScalar] at h
      by_contra haccepts
      rw [if_neg haccepts] at h
      cases h
  | array items => cases h
  | object members => cases h
  | null => cases h
  | bool value => cases h
  | number value => cases h

theorem source_kind {members : GraphMembers Number} {result : GraphValue Number}
    (h : parse library (.object members) .source = some result) :
    exists (kind : ScriptString) (fields : List (SchemaField Number))
        (reordered : GraphMembers Number),
      own kindKey members = some (.string kind) ∧ sourceFields kind = some fields ∧
        objectShape library members .source = .strict fields ∧ result = .object reordered ∧
          own kindKey reordered = some (.string kind) := by
  rcases union_cases members "kind" sourceFields with
    hrefused | ⟨kind, fields, hkind, hfields, hunion⟩
  · have hshape : objectShape library members .source = .refused := hrefused
    rw [parse, hshape] at h
    cases h
  · have hshape : objectShape library members .source = .strict fields := hunion
    rcases parse_strict hshape h with ⟨parsed, reordered, rfl, hperm, heach, hrequired⟩
    refine ⟨kind, fields, reordered, hkind, hfields, hshape, rfl, ?_⟩
    rcases (sourceFields_eq_some hfields).left with ⟨rest, rfl⟩
    apply own_of_all
    · rcases hrequired _ (List.mem_cons_self ..) rfl with ⟨member, hmember, hkey⟩
      exact ⟨member, hperm.mem_iff.mpr hmember, hkey⟩
    · intro member hmember hkey
      rcases exists_of_mem_right heach (hperm.mem_iff.mp hmember) with
        ⟨source, _, hname, field, hfind, hparse⟩
      have hfirst : some (required "kind" (text fun text => text == kind)) = some field := by
        rw [← hfind, ← hname, hkey]
        rfl
      rw [← Option.some.inj hfirst] at hparse
      rcases eq_of_parse_text hparse with ⟨text, htext, haccepts⟩
      rw [htext, beq_iff_eq.mp haccepts]

omit [GraphNumber Number] in
theorem isLiteral_of_kind {members : GraphMembers Number} {kind : ScriptString}
    (h : own kindKey members = some (.string kind)) :
    isLiteral members = (kind == scriptString "literal") := by
  rw [isLiteral, h]

theorem same_source {source : GraphValue Number} {result : GraphValue Number}
    (hordered : source.Ordered)
    (h : parse library (escapeLiteralSource source) .source = some result) :
    Same (restoreLiteralSource result) (keptSource source) := by
  cases source with
  | object members =>
      rw [escapeLiteralSource, renameLiteralKeys] at h
      rw [keptSource]
      by_cases hliteral : isLiteral members = true
      · rw [if_pos hliteral] at h ⊢
        rcases source_kind h with ⟨kind, fields, others, hkind, hfields, hshape, hothers, hafter⟩
        have hbefore : own kindKey members = some (.string kind) := by
          rw [← hkind]
          exact (@own_map _ kindKey members (fun key value =>
            if key == scriptString "value" then renameJsonKeys escapeKey value else value)
            (fun value => rfl)).symm
        rw [isLiteral_of_kind hbefore] at hliteral
        rcases @same_strict _ _ library members .source fields
          (fun key value =>
            if key == scriptString "value" then renameJsonKeys escapeKey value else value)
          (fun key value =>
            if key == scriptString "value" then renameJsonKeys restoreKey value else value)
          (fun key value => if key == scriptString "value" then value else copyValue value)
          result hshape h (by
            intro member hmember field hfield hname parsed hparsed
            rcases (sourceFields_eq_some hfields).right field hfield with
              ⟨hplain, hother⟩ | ⟨_, rfl⟩
            · have hkey : (member.fst == scriptString "value") = false := by
                rw [← hname]
                exact beq_eq_false_iff_ne.mpr hother
              simp only [hkey, Bool.false_eq_true, if_false] at hparsed ⊢
              exact same_of_plain member.snd field.schema parsed hplain hparsed
            · have hkey : (member.fst == scriptString "value") = true := beq_iff_eq.mpr hname.symm
              simp only [hkey, if_true] at hparsed ⊢
              have hkept := restore_copy_escape_json member.snd
                (orderedMembers_iff.mp hordered.right member hmember)
              rw [parse_json hparsed]
              rw [restoreJsonValueKeys, escapeJsonValueKeys] at hkept
              rw [hkept]
              exact Same.refl _) with ⟨reordered, hreordered, hsame⟩
        rw [hothers] at hreordered
        cases hreordered
        rw [hothers, restoreLiteralSource, renameLiteralKeys, if_pos
          ((isLiteral_of_kind hafter).trans hliteral)]
        exact hsame
      · rw [if_neg hliteral] at h ⊢
        rcases source_kind h with ⟨kind, fields, others, hkind, hfields, hshape, rfl, hafter⟩
        rw [isLiteral_of_kind hkind] at hliteral
        rw [restoreLiteralSource, renameLiteralKeys, if_neg
          (by rwa [isLiteral_of_kind hafter])]
        have hplain : forall field, field ∈ fields -> isPlain field.schema = true := by
          intro field hfield
          rcases (sourceFields_eq_some hfields).right field hfield with
            ⟨hplain, _⟩ | ⟨hkind, _⟩
          · exact hplain
          · exact absurd (beq_iff_eq.mpr hkind) hliteral
        exact same_of_strict hshape hplain h
  | array items => exact absurd (object_of_parse rfl h) (by rintro ⟨_, ⟨⟩⟩)
  | null => exact absurd (object_of_parse rfl h) (by rintro ⟨_, ⟨⟩⟩)
  | bool value => exact absurd (object_of_parse rfl h) (by rintro ⟨_, ⟨⟩⟩)
  | number value => exact absurd (object_of_parse rfl h) (by rintro ⟨_, ⟨⟩⟩)
  | string text => exact absurd (object_of_parse rfl h) (by rintro ⟨_, ⟨⟩⟩)

/-!
## Configs, mappings and callables
-/

theorem parseRecord_json {members parsed : GraphMembers Number}
    (h : parseRecord library members .json = some parsed) : parsed = copyMembers members := by
  have heach := parseRecord_eq_some h
  rw [copyMembers_eq]
  clear h
  generalize members.filter (fun member => keepsKey member.fst) = kept at heach ⊢
  induction heach with
  | nil => rfl
  | @cons member result rest others hfirst _ ih =>
      rcases result with ⟨key, value⟩
      rcases hfirst with ⟨hkey, hvalue⟩
      dsimp only at hkey hvalue
      rw [List.map_cons, ← ih, ← parse_json hvalue, hkey]

theorem config_kept {config result : GraphValue Number} (hordered : config.Ordered)
    (h : parse library (renameConfig escapeKey config) .config = some result) :
    renameConfig restoreKey result = config := by
  cases config with
  | object members =>
      have hrestored := restore_copy_escape_json (.object members) hordered
      rw [renameConfig, renameJsonKeys] at h
      rw [escapeJsonValueKeys, renameJsonKeys, copyValue] at hrestored
      have hshape : objectShape library (buildObject (renameJsonMembers escapeKey members))
          .config = .record .json := rfl
      rw [parse, hshape] at h
      rcases Option.map_eq_some_iff.mp h with ⟨parsed, hparsed, rfl⟩
      rw [parseRecord_json hparsed]
      exact hrestored
  | array items => exact absurd (object_of_parse rfl h) (by rintro ⟨_, ⟨⟩⟩)
  | null => exact absurd (object_of_parse rfl h) (by rintro ⟨_, ⟨⟩⟩)
  | bool value => exact absurd (object_of_parse rfl h) (by rintro ⟨_, ⟨⟩⟩)
  | number value => exact absurd (object_of_parse rfl h) (by rintro ⟨_, ⟨⟩⟩)
  | string text => exact absurd (object_of_parse rfl h) (by rintro ⟨_, ⟨⟩⟩)

theorem same_mappings {mappings result : GraphValue Number} (hordered : mappings.Ordered)
    (h : parse library (renameMappings escapeKey mappings) .inputMappings = some result) :
    Same (renameMappings restoreKey result) (keptMappings mappings) := by
  cases mappings with
  | object members =>
      rcases hordered with ⟨horder, hmembers⟩
      have heach := orderedMembers_iff.mp hmembers
      have hescaped := @ownOrder_escape _ _ members
        (fun member => renameLiteralKeys escapeKey member.snd) horder
      rw [renameMappings, buildObject_of_ownOrder hescaped] at h
      have hshape : objectShape library (members.map fun member =>
          (escapeKey member.fst, renameLiteralKeys escapeKey member.snd)) .inputMappings =
            .record .source := rfl
      rw [parse, hshape] at h
      rcases Option.map_eq_some_iff.mp h with ⟨parsed, hparsed, rfl⟩
      have hpairs := parseRecord_eq_some hparsed
      rw [List.filter_eq_self.mpr (by
          intro member hmember
          rcases List.mem_map.mp hmember with ⟨_, _, rfl⟩
          exact keepsKey_escapeKey _), List.forall₂_map_left_iff] at hpairs
      have hsame : List.Forall₂ (fun restored member => restored.fst = member.fst ∧
          Same restored.snd member.snd)
          (parsed.map fun member =>
            (restoreKey member.fst, renameLiteralKeys restoreKey member.snd))
          (members.map fun member => (member.fst, keptSource member.snd)) := by
        rw [List.forall₂_map_left_iff, List.forall₂_map_right_iff]
        clear hparsed h hescaped horder hmembers hshape
        induction hpairs with
        | nil => exact List.Forall₂.nil
        | @cons member result rest others hfirst _ ih =>
            refine List.Forall₂.cons ⟨?_, ?_⟩ (ih fun other hother =>
              heach other (List.mem_cons_of_mem _ hother))
            · rw [hfirst.left]
              exact restoreKey_escapeKey _
            · exact same_source (heach member (List.mem_cons_self ..)) hfirst.right
      have hkeys : (parsed.map fun member =>
          (restoreKey member.fst, renameLiteralKeys restoreKey member.snd)).map Prod.fst =
            members.map Prod.fst := by
        clear hparsed h hescaped horder hmembers hshape hsame heach
        induction hpairs with
        | nil => rfl
        | cons hfirst _ ih =>
            rw [List.map_cons, List.map_cons, ih, List.map_cons]
            dsimp only
            rw [hfirst.left, restoreKey_escapeKey]
      rw [renameMappings, buildObject_of_ownOrder (ownOrder_keys hkeys horder), keptMappings]
      exact Same.object (List.Perm.refl _) (sameMembers_of_forall₂ hsame)
  | array items => exact absurd (object_of_parse rfl h) (by rintro ⟨_, ⟨⟩⟩)
  | null => exact absurd (object_of_parse rfl h) (by rintro ⟨_, ⟨⟩⟩)
  | bool value => exact absurd (object_of_parse rfl h) (by rintro ⟨_, ⟨⟩⟩)
  | number value => exact absurd (object_of_parse rfl h) (by rintro ⟨_, ⟨⟩⟩)
  | string text => exact absurd (object_of_parse rfl h) (by rintro ⟨_, ⟨⟩⟩)

def callableFields : List (SchemaField Number) :=
  [required "input" .callableType, required "resultType" .callableType,
    required "result" .source]

theorem names_ne_result :
    scriptString "input" ≠ scriptString "result" ∧
      scriptString "resultType" ≠ scriptString "result" := by
  decide

omit [GraphNumber Number] in
theorem callableFields_cases {field : SchemaField Number} (h : field ∈ callableFields) :
    isPlain field.schema = true ∧ field.name ≠ scriptString "result" ∨
      field = required "result" .source := by
  rw [callableFields, List.mem_cons, List.mem_cons, List.mem_singleton] at h
  rcases h with rfl | rfl | rfl
  · exact Or.inl ⟨rfl, names_ne_result.left⟩
  · exact Or.inl ⟨rfl, names_ne_result.right⟩
  · exact Or.inr rfl

theorem same_callable {callable result : GraphValue Number} (hordered : callable.Ordered)
    (h : parse library (renameCallable escapeKey callable) .callable = some result) :
    Same (renameCallable restoreKey result) (keptCallable callable) := by
  cases callable with
  | object members =>
      rw [renameCallable] at h
      rcases @same_strict _ _ library members .callable callableFields
        (fun key value =>
          if key == scriptString "result" then renameLiteralKeys escapeKey value else value)
        (fun key value =>
          if key == scriptString "result" then renameLiteralKeys restoreKey value else value)
        (fun key value => if key == scriptString "result" then keptSource value
          else copyValue value) result rfl h (by
          intro member hmember field hfield hname parsed hparsed
          rcases callableFields_cases hfield with ⟨hplain, hother⟩ | rfl
          · have hkey : (member.fst == scriptString "result") = false := by
              rw [← hname]
              exact beq_eq_false_iff_ne.mpr hother
            simp only [hkey, Bool.false_eq_true, if_false] at hparsed ⊢
            exact same_of_plain member.snd field.schema parsed hplain hparsed
          · have hkey : (member.fst == scriptString "result") = true := beq_iff_eq.mpr hname.symm
            simp only [hkey, if_true] at hparsed ⊢
            exact same_source (orderedMembers_iff.mp hordered.right member hmember) hparsed) with
        ⟨reordered, rfl, hsame⟩
      exact hsame
  | array items => exact absurd (object_of_parse rfl h) (by rintro ⟨_, ⟨⟩⟩)
  | null => exact absurd (object_of_parse rfl h) (by rintro ⟨_, ⟨⟩⟩)
  | bool value => exact absurd (object_of_parse rfl h) (by rintro ⟨_, ⟨⟩⟩)
  | number value => exact absurd (object_of_parse rfl h) (by rintro ⟨_, ⟨⟩⟩)
  | string text => exact absurd (object_of_parse rfl h) (by rintro ⟨_, ⟨⟩⟩)

end

end

end Preflight
end Pertexo
