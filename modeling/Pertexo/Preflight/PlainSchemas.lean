import Pertexo.Preflight.SameValues

/-!
# Plain schemas

What a plain schema accepts keeps its keys and values, `__proto__` apart.
-/

namespace Pertexo
namespace Preflight

open Canonical
open Library
open Portability
open Values

section

variable {Number : Type} [GraphNumber Number] {library : SchemaLibrary}

def isPlain : SchemaName Number -> Bool
  | .json => false
  | .graph => false
  | .body => false
  | .nodes _ => false
  | .node => false
  | .structured => false
  | .config => false
  | .inputMappings => false
  | .source => false
  | .callable => false
  | _ => true

theorem callableTypeFields_plain {type : ScriptString} {fields : List (SchemaField Number)}
    (h : callableTypeFields type = some fields) :
    forall field, field ∈ fields -> isPlain field.schema = true := by
  rw [callableTypeFields] at h
  split at h
  · cases h
    simp [required, literal, text, number, isPlain]
  · split at h
    · cases h
      simp [required, literal, text, isPlain]
    · split at h
      · cases h
        simp [required, text, isPlain]
      · cases h

theorem objectShape_plain {members : GraphMembers Number} {name : SchemaName Number}
    (hplain : isPlain name = true) :
    objectShape library members name = .refused ∨
      objectShape library members name = .record identifier ∨
        exists fields, objectShape library members name = .strict fields ∧
          forall field, field ∈ fields -> isPlain field.schema = true := by
  cases name with
  | callableType =>
      rw [objectShape, ObjectShape.union]
      split
      · split
        · next fields hfields =>
          exact Or.inr (Or.inr ⟨fields, rfl, callableTypeFields_plain hfields⟩)
        · exact Or.inl rfl
      · exact Or.inl rfl
  | scalar accepts => exact Or.inl rfl
  | edges isBody => exact Or.inl rfl
  | identifiers => exact Or.inl rfl
  | properties => exact Or.inl rfl
  | notes => exact Or.inl rfl
  | connectionRefs => exact Or.inr (Or.inl rfl)
  | edge => exact Or.inr (Or.inr ⟨_, rfl, by simp [required, identifier, text, isPlain]⟩)
  | edgeEnd => exact Or.inr (Or.inr ⟨_, rfl, by simp [required, identifier, text, isPlain]⟩)
  | settings => exact Or.inr (Or.inr ⟨_, rfl, by simp [optional, number, isPlain]⟩)
  | definition =>
      exact Or.inr (Or.inr ⟨_, rfl, by simp [required, identifier, text, number, isPlain]⟩)
  | position => exact Or.inr (Or.inr ⟨_, rfl, by simp [required, number, isPlain]⟩)
  | retry => exact Or.inr (Or.inr ⟨_, rfl, by simp [required, number, isPlain]⟩)
  | property => exact Or.inr (Or.inr ⟨_, rfl, by simp [required, text, boolean, isPlain]⟩)
  | note => exact Or.inr (Or.inr ⟨_, rfl, by simp [required, text, isPlain]⟩)
  | notePosition => exact Or.inr (Or.inr ⟨_, rfl, by simp [required, number, isPlain]⟩)
  | noteSize => exact Or.inr (Or.inr ⟨_, rfl, by simp [required, number, isPlain]⟩)
  | _ => cases hplain

omit [GraphNumber Number] in
theorem arrayShape_plain {name : SchemaName Number} (hplain : isPlain name = true) :
    arrayShape name = .refused ∨
      exists item accepts, arrayShape name = .items item accepts ∧ isPlain item = true := by
  cases name with
  | edges isBody => exact Or.inr ⟨_, _, rfl, rfl⟩
  | identifiers => exact Or.inr ⟨_, _, rfl, rfl⟩
  | properties => exact Or.inr ⟨_, _, rfl, rfl⟩
  | notes => exact Or.inr ⟨_, _, rfl, rfl⟩
  | json => cases hplain
  | nodes isBody => cases hplain
  | _ => exact Or.inl rfl

/-- A strict object, member by member: what becomes of it is the same as what its members
become. -/
theorem same_strict {members : GraphMembers Number} {name : SchemaName Number}
    {fields : List (SchemaField Number)}
    {before after wanted : ScriptString -> GraphValue Number -> GraphValue Number}
    {result : GraphValue Number}
    (hshape : objectShape library
      (members.map fun member => (member.fst, before member.fst member.snd)) name = .strict fields)
    (h : parse library
      (.object (members.map fun member => (member.fst, before member.fst member.snd))) name =
        some result)
    (hfields : forall member, member ∈ members -> forall field, field ∈ fields ->
      field.name = member.fst -> forall parsed,
        parse library (before member.fst member.snd) field.schema = some parsed ->
          Same (after member.fst parsed) (wanted member.fst member.snd)) :
    exists reordered, result = .object reordered ∧
      Same (.object (reordered.map fun member => (member.fst, after member.fst member.snd)))
        (.object ((members.filter fun member => keepsKey member.fst).map fun member =>
          (member.fst, wanted member.fst member.snd))) := by
  rcases parse_strict hshape h with ⟨parsed, reordered, rfl, hperm, heach, hrequired⟩
  refine ⟨reordered, rfl, ?_⟩
  refine Same.object (hperm.map _) ?_
  apply sameMembers_of_forall₂
  rw [List.filter_map, List.forall₂_map_left_iff] at heach
  rw [List.forall₂_map_left_iff, List.forall₂_map_right_iff]
  have hkept : forall member,
      member ∈ members.filter ((fun member => keepsKey member.fst) ∘
        fun member => (member.fst, before member.fst member.snd)) -> member ∈ members :=
    fun member hmember => (List.mem_filter.mp hmember).left
  show List.Forall₂ _ parsed (members.filter ((fun member => keepsKey member.fst) ∘
        fun member => (member.fst, before member.fst member.snd)))
  clear hshape h hperm hrequired
  generalize members.filter ((fun member => keepsKey member.fst) ∘
        fun member => (member.fst, before member.fst member.snd)) = kept at heach hkept ⊢
  induction heach with
  | nil => exact List.Forall₂.nil
  | @cons member result rest others hfirst _ ih =>
      refine List.Forall₂.cons ?_ (ih fun other hother =>
        hkept other (List.mem_cons_of_mem _ hother))
      rcases hfirst with ⟨hkey, field, hfind, hparse⟩
      refine ⟨hkey, ?_⟩
      dsimp only at hkey hparse ⊢
      rw [hkey]
      exact hfields member (hkept member (List.mem_cons_self ..)) field
        (List.mem_of_find?_eq_some hfind) (by simpa using List.find?_some hfind) result.snd hparse

theorem same_of_fields {members : GraphMembers Number} {name : SchemaName Number}
    {fields : List (SchemaField Number)} {result : GraphValue Number}
    (hshape : objectShape library members name = .strict fields)
    (h : parse library (.object members) name = some result)
    (hfields : forall member, member ∈ members -> forall field, field ∈ fields ->
      forall parsed, parse library member.snd field.schema = some parsed ->
        Same parsed (copyValue member.snd)) :
    Same result (copyValue (.object members)) := by
  have hsame : (members.map fun member => (member.fst, member.snd)) = members :=
    List.map_id members
  rcases @same_strict _ _ library members name fields (fun _ value => value)
    (fun _ value => value) (fun _ value => copyValue value) result
    (by rwa [hsame]) (by rwa [hsame])
    (fun member hmember field hfield _ parsed => hfields member hmember field hfield parsed) with
    ⟨reordered, rfl, hresult⟩
  have hkept : (reordered.map fun member => (member.fst, member.snd)) = reordered :=
    List.map_id reordered
  rw [copyValue, copyMembers_eq]
  rwa [hkept] at hresult

theorem same_of_plain (value : GraphValue Number) :
    forall (name : SchemaName Number) (result : GraphValue Number), isPlain name = true ->
      parse library value name = some result -> Same result (copyValue value) := by
  induction value using value_induction with
  | hscalar value hitems hmembers =>
      intro name result hplain h
      have hscalar : forall value, parseScalar value name = some result -> result = value := by
        intro value hvalue
        cases name with
        | scalar accepts =>
            rw [parseScalar] at hvalue
            split at hvalue
            · exact (Option.some.inj hvalue).symm
            · cases hvalue
        | json => cases hplain
        | _ => cases hvalue
      have hsame : result = copyValue value := by
        cases value with
        | array items => exact absurd rfl (hitems items)
        | object members => exact absurd rfl (hmembers members)
        | null => exact hscalar _ h
        | bool value => exact hscalar _ h
        | number value => exact hscalar _ h
        | string text => exact hscalar _ h
      rw [hsame]
      exact Same.refl _
  | harray items ih =>
      intro name result hplain h
      rcases arrayShape_plain hplain with hrefused | ⟨item, accepts, hshape, hitem⟩
      · rw [parse, hrefused] at h
        cases h
      · rw [parse, hshape] at h
        rcases Option.bind_eq_some_iff.mp h with ⟨parsed, hparsed, haccepted⟩
        split at haccepted
        · next haccepts =>
          cases haccepted
          have heach := parseItems_eq_some hparsed
          rw [copyValue, copyItems_eq]
          apply Same.array
          apply sameItems_of_forall₂
          rw [List.forall₂_map_right_iff]
          clear hparsed h haccepts
          induction heach with
          | nil => exact List.Forall₂.nil
          | cons hfirst _ ihRest =>
              refine List.Forall₂.cons (ih _ (List.mem_cons_self ..) item _ hitem hfirst)
                (ihRest fun other hother => ih other (List.mem_cons_of_mem _ hother))
        · cases haccepted
  | hobject members ih =>
      intro name result hplain h
      rw [copyValue, copyMembers_eq]
      rcases @objectShape_plain _ _ library members name hplain with
        hrefused | hrecord | ⟨fields, hshape, hfields⟩
      · rw [parse, hrefused] at h
        cases h
      · rw [parse, hrecord] at h
        rcases Option.map_eq_some_iff.mp h with ⟨parsed, hparsed, rfl⟩
        apply Same.object (List.Perm.refl _)
        apply sameMembers_of_forall₂
        rw [List.forall₂_map_right_iff]
        have heach := parseRecord_eq_some hparsed
        have hkept : forall member,
            member ∈ members.filter (fun member => keepsKey member.fst) -> member ∈ members :=
          fun member hmember => (List.mem_filter.mp hmember).left
        clear hparsed h hrecord
        generalize members.filter (fun member => keepsKey member.fst) = kept at heach hkept ⊢
        induction heach with
        | nil => exact List.Forall₂.nil
        | cons hfirst _ ihRest =>
            exact List.Forall₂.cons ⟨hfirst.left,
              ih _ (hkept _ (List.mem_cons_self ..)) identifier _ rfl hfirst.right⟩
              (ihRest fun other hother => hkept other (List.mem_cons_of_mem _ hother))
      · rw [← copyMembers_eq, ← copyValue]
        exact same_of_fields hshape h fun member hmember field hfield =>
          fun parsed => ih member hmember field.schema parsed (hfields field hfield)

theorem same_of_strict {members : GraphMembers Number} {name : SchemaName Number}
    {fields : List (SchemaField Number)} {result : GraphValue Number}
    (hshape : objectShape library members name = .strict fields)
    (hplain : forall field, field ∈ fields -> isPlain field.schema = true)
    (h : parse library (.object members) name = some result) :
    Same result (copyValue (.object members)) :=
  same_of_fields hshape h fun member _ field hfield parsed =>
    same_of_plain member.snd field.schema parsed (hplain field hfield)

end

end Preflight
end Pertexo
