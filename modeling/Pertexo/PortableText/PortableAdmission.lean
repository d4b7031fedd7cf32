import Pertexo.PortableText.ScanAgreement
import Pertexo.Values.JsonText

/-!
# Portable JSON is what JSON is, without duplicates

## Snapshots of parsed values
-/

namespace Pertexo
namespace PortableText

open Canonical
open Library
open Portability
open Values

section

variable {Number : Type}

theorem evaluateItems_eq (items : List (GraphValue Number)) :
    evaluateItems items = items.map evaluate := by
  induction items with
  | nil => rfl
  | cons item rest ih =>
      rw [evaluateItems, ih]
      rfl

theorem evaluateMembers_eq (members : GraphMembers Number) :
    evaluateMembers members = members.map fun member => (member.fst, evaluate member.snd) := by
  induction members with
  | nil => rfl
  | cons member rest ih =>
      rw [evaluateMembers, ih]
      rfl

theorem ordered_buildObject {members : GraphMembers Number}
    (h : forall member, member ∈ members -> member.snd.Ordered) :
    (BoundedJsonValue.object (buildObject members)).Ordered := by
  have hfold : forall result : GraphMembers Number, (BoundedJsonValue.object result).Ordered ->
      (BoundedJsonValue.object (members.foldl (fun result member =>
        defineProperty member.fst member.snd result) result)).Ordered := by
    induction members with
    | nil => exact fun result hresult => hresult
    | cons member rest ih =>
        intro result hresult
        rw [List.foldl_cons]
        exact ih (fun other hother => h other (List.mem_cons_of_mem _ hother)) _
          (ordered_defineProperty (h member (List.mem_cons_self ..)) hresult)
  exact hfold [] ⟨List.Pairwise.nil, trivial⟩

theorem evaluate_ordered (tree : GraphValue Number) : (evaluate tree).Ordered := by
  induction tree using value_induction with
  | hscalar value hitems hmembers =>
      cases value with
      | array items => exact absurd rfl (hitems items)
      | object members => exact absurd rfl (hmembers members)
      | _ => trivial
  | harray items ih =>
      rw [evaluate, evaluateItems_eq]
      apply orderedItems_iff.mpr
      intro item hitem
      rcases List.mem_map.mp hitem with ⟨source, hsource, rfl⟩
      exact ih source hsource
  | hobject members ih =>
      rw [evaluate, evaluateMembers_eq]
      apply ordered_buildObject
      intro member hmember
      rcases List.mem_map.mp hmember with ⟨source, hsource, rfl⟩
      exact ih source hsource

theorem snapshotOf_ordered (value : GraphValue Number) :
    value.Ordered -> snapshotOf value = value := by
  induction value using value_induction with
  | hscalar value hitems hmembers =>
      intro _
      cases value with
      | array items => exact absurd rfl (hitems items)
      | object members => exact absurd rfl (hmembers members)
      | _ => rfl
  | harray items ih =>
      intro hordered
      rw [snapshotOf, snapshotItems_eq]
      congr 1
      calc items.map snapshotOf = items.map id := List.map_congr_left fun item hitem =>
            ih item hitem (orderedItems_iff.mp hordered item hitem)
        _ = items := List.map_id items
  | hobject members ih =>
      rintro ⟨horder, hordered⟩
      have hsame : (members.map fun member => (member.fst, snapshotOf member.snd)) = members := by
        calc members.map _ = members.map id := List.map_congr_left fun member hmember =>
              congrArg (Prod.mk member.fst)
                (ih member hmember (orderedMembers_iff.mp hordered member hmember))
          _ = members := List.map_id members
      rw [snapshotOf, snapshotMembers_eq, hsame, buildObject_of_ownOrder horder]

variable [ScriptNumber Number]

theorem portableSnapshot_iff {value snapshot : GraphValue Number} (hordered : value.Ordered) :
    portableSnapshot value = .ok snapshot ↔
      (inspectAdmission portableLimits false value).isOk = true ∧ snapshot = value := by
  rw [portableSnapshot]
  cases hinspect : inspectAdmission portableLimits false value with
  | error failure =>
      constructor
      · intro h
        cases h
      · rintro ⟨h, _⟩
        cases h
  | ok inspected =>
      rcases inspected with ⟨found, bytes⟩
      have hfound : found = value := by
        rcases exists_of_bind_eq_ok hinspect with ⟨count, _, hrest⟩
        rcases exists_of_bind_eq_ok hrest with ⟨_, _, hpair⟩
        cases hpair
        exact snapshotOf_ordered value hordered
      rw [hfound]
      constructor
      · intro h
        exact ⟨rfl, (Except.ok.inj h).symm⟩
      · rintro ⟨_, rfl⟩
        rfl

/-!
## Admission
-/

/-- A text within the limit is read exactly when the parser accepts it, its tree is neither
too deep nor has a name twice, and its value is admitted; the result is that value. -/
theorem parsePortableJson_exact {text : ScriptString}
    (hbytes : portableByteLength text ≤ portabilityBytes) :
    (forall value : GraphValue Number, parsePortableJson text = .ok value ↔
      exists tree : GraphValue Number, readJson text = some tree ∧
        nesting tree ≤ portabilityInputDepth ∧ DistinctNames tree ∧
        parseText text = some value ∧
        (inspectAdmission portableLimits false value).isOk = true) ∧
    (forall tree : GraphValue Number, readJson text = some tree ->
      (inspectJsonText Number text = .ok () ↔
        DistinctNames tree ∧ nesting tree ≤ portabilityInputDepth)) := by
  refine ⟨?_, fun tree => inspectJsonText_iff⟩
  intro value
  rw [parsePortableJson, if_neg (by omega), bind_eq_ok_iff]
  constructor
  · rintro ⟨_, hscan, hparsed⟩
    cases hparse : (parseText text : Option (GraphValue Number)) with
    | none =>
        rw [hparse] at hparsed
        cases hparsed
    | some parsed =>
        rw [hparse] at hparsed
        dsimp only at hparsed
        rcases Option.map_eq_some_iff.mp hparse with ⟨tree, htree, rfl⟩
        rcases (inspectJsonText_iff htree).mp hscan with ⟨hdistinct, hnesting⟩
        rcases (portableSnapshot_iff (evaluate_ordered tree)).mp hparsed with ⟨hadmitted, rfl⟩
        exact ⟨tree, htree, hnesting, hdistinct, rfl, hadmitted⟩
  · rintro ⟨tree, htree, hnesting, hdistinct, hparse, hadmitted⟩
    refine ⟨(), (inspectJsonText_iff htree).mpr ⟨hdistinct, hnesting⟩, ?_⟩
    have hvalue : value = evaluate tree := by
      rw [parseText, htree] at hparse
      exact (Option.some.inj hparse).symm
    rw [hparse]
    dsimp only
    rw [portableSnapshot_iff (by rw [hvalue]; exact evaluate_ordered tree)]
    exact ⟨hadmitted, rfl⟩

end

/-!
## A nested text
-/

def sampleText : ScriptString :=
  scriptString "\x7b\"b\":[null,\x7b\"a\":7\x7d],\"a\":[]\x7d"

def sampleTree : GraphValue Nat :=
  .object [(scriptString "b", .array [.null, .object [(scriptString "a", .number (.finite 7))]]),
    (scriptString "a", .array [])]

/-- A name that is written in two ways is a duplicate. -/
def duplicateText : ScriptString :=
  scriptString "\x7b\"a\":[],\"\\u0061\":0\x7d"

theorem parsePortableJson_exact_sample :
    parsePortableJson sampleText = .ok sampleTree ∧
      forall value : GraphValue Nat, parsePortableJson duplicateText ≠ .ok value := by
  have hread : readJson sampleText = some sampleTree := by rfl
  have hduplicate : readJson duplicateText = some (.object
      [(scriptString "a", .array []), (scriptString "a", .number (.finite 0))]) := by
    rfl
  constructor
  · apply ((parsePortableJson_exact (by decide)).left sampleTree).mpr
    refine ⟨sampleTree, hread, by decide, ?_, ?_, by decide +kernel⟩
    · simp [sampleTree, DistinctNames, DistinctInMembers, DistinctInItems]
      decide
    · rw [parseText, hread]
      rfl
  · intro value haccepted
    rcases ((parsePortableJson_exact (by decide)).left value).mp haccepted with
      ⟨tree, htree, _, hdistinct, _⟩
    rw [hduplicate] at htree
    cases htree
    exact absurd hdistinct.left (by decide)

end PortableText
end Pertexo
