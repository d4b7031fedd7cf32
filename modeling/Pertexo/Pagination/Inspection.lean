import Pertexo.Canonical.ParsedText
import Pertexo.Pages.Read

/-!
# Inspecting JSON values

The size of a value is the length of its text, the depth of its containers and the number of
their members. Sorting the keys changes none of them.
-/

namespace Pertexo
namespace Pagination

open Values
open Canonical

structure JsonInspection where
  bytes : Nat
  depth : Nat
  members : Nat
deriving DecidableEq, Repr

section

variable {Number : Type}

mutual

def visit (containerDepth : Nat) (counted : Nat × Nat) : BoundedJsonValue Number -> Nat × Nat
  | .array items =>
      visitItems (containerDepth + 1)
        (max counted.fst (containerDepth + 1), counted.snd + items.length) items
  | .object members =>
      visitMembers (containerDepth + 1)
        (max counted.fst (containerDepth + 1), counted.snd + members.length) members
  | _ => (max counted.fst containerDepth, counted.snd)

def visitItems (containerDepth : Nat) (counted : Nat × Nat) :
    List (BoundedJsonValue Number) -> Nat × Nat
  | [] => counted
  | item :: rest => visitItems containerDepth (visit containerDepth counted item) rest

def visitMembers (containerDepth : Nat) (counted : Nat × Nat) :
    List (ScriptString × BoundedJsonValue Number) -> Nat × Nat
  | [] => counted
  | (_, value) :: rest => visitMembers containerDepth (visit containerDepth counted value) rest

end

variable [ScriptNumber Number]

def inspectJsonValue (value : HeapValue Number) : JsonResult JsonInspection := do
  let normalized ← canonicalizeJson value
  let (depth, members) := visit 0 (0, 0) normalized
  return { bytes := utf8ByteLength (stringify normalized), depth, members }

end

/-!
## What is counted
-/

section

variable {Number : Type}

mutual

theorem visit_eq (containerDepth depth members : Nat) (h : containerDepth ≤ depth) :
    forall value : BoundedJsonValue Number,
      visit containerDepth (depth, members) value =
        (max depth (containerDepth + value.depth), members + value.memberCount)
  | .null => rfl
  | .bool _ => rfl
  | .number _ => rfl
  | .string _ => rfl
  | .array items => by
      rw [visit, visitItems_eq _ _ _ (le_max_right _ _) items]
      dsimp only
      rw [BoundedJsonValue.depth, BoundedJsonValue.memberCount]
      apply Prod.ext <;> dsimp only <;> omega
  | .object fields => by
      rw [visit, visitMembers_eq _ _ _ (le_max_right _ _) fields]
      dsimp only
      rw [BoundedJsonValue.depth, BoundedJsonValue.memberCount]
      apply Prod.ext <;> dsimp only <;> omega

theorem visitItems_eq (containerDepth depth members : Nat) (h : containerDepth ≤ depth) :
    forall items : List (BoundedJsonValue Number),
      visitItems containerDepth (depth, members) items =
        (max depth (containerDepth + itemsDepth items), members + itemsCount items)
  | [] => by
      rw [visitItems, itemsDepth, itemsCount]
      apply Prod.ext <;> dsimp only <;> omega
  | item :: rest => by
      rw [visitItems, visit_eq containerDepth depth members h item,
        visitItems_eq _ _ _ (Nat.le_trans h (le_max_left _ _)) rest, itemsDepth, itemsCount]
      apply Prod.ext <;> dsimp only <;> omega

theorem visitMembers_eq (containerDepth depth members : Nat) (h : containerDepth ≤ depth) :
    forall fields : List (ScriptString × BoundedJsonValue Number),
      visitMembers containerDepth (depth, members) fields =
        (max depth (containerDepth + membersDepth fields), members + membersCount fields)
  | [] => by
      rw [visitMembers, membersDepth, membersCount]
      apply Prod.ext <;> dsimp only <;> omega
  | (_, value) :: rest => by
      rw [visitMembers, visit_eq containerDepth depth members h value,
        visitMembers_eq _ _ _ (Nat.le_trans h (le_max_left _ _)) rest, membersDepth,
        membersCount]
      apply Prod.ext <;> dsimp only <;> omega

end

theorem membersCount_eq_sum (members : List (ScriptString × BoundedJsonValue Number)) :
    membersCount members = (members.map fun member => member.snd.memberCount).sum := by
  induction members with
  | nil => rfl
  | cons member rest ih => rw [membersCount, List.map_cons, List.sum_cons, ih]

theorem itemsCount_eq_sum (items : List (BoundedJsonValue Number)) :
    itemsCount items = (items.map BoundedJsonValue.memberCount).sum := by
  induction items with
  | nil => rfl
  | cons item rest ih => rw [itemsCount, List.map_cons, List.sum_cons, ih]

mutual

theorem height_le_depth : forall value : BoundedJsonValue Number, height value ≤ value.depth
  | .null => Nat.le_refl _
  | .bool _ => Nat.le_refl _
  | .number _ => Nat.le_refl _
  | .string _ => Nat.le_refl _
  | .array items => itemsHeight_le_depth items
  | .object members => membersHeight_le_depth members

theorem itemsHeight_le_depth :
    forall items : List (BoundedJsonValue Number), itemsHeight items ≤ itemsDepth items + 1
  | [] => Nat.zero_le _
  | item :: rest => by
      have hitem := height_le_depth item
      have hrest := itemsHeight_le_depth rest
      rw [itemsHeight, itemsDepth]
      omega

theorem membersHeight_le_depth :
    forall members : List (ScriptString × BoundedJsonValue Number),
      membersHeight members ≤ membersDepth members + 1
  | [] => Nat.zero_le _
  | (_, value) :: rest => by
      have hvalue := height_le_depth value
      have hrest := membersHeight_le_depth rest
      rw [membersHeight, membersDepth]
      omega

end

end

/-!
## Sorting keeps what is counted
-/

section

variable {Number : Type} [ScriptNumber Number]

def textBytes (value : BoundedJsonValue Number) : Nat :=
  utf8ByteLength (stringify value)

def memberBytes (member : ScriptString × BoundedJsonValue Number) : Nat :=
  utf8ByteLength (quoteText member.fst) + 1 + textBytes member.snd

theorem stringifyMembers_eq_map (members : List (ScriptString × BoundedJsonValue Number)) :
    stringifyMembers members =
      members.map fun member => quoteText member.fst ++ ':' :: stringify member.snd := by
  induction members with
  | nil => rfl
  | cons member rest ih => rw [stringifyMembers, ih, List.map_cons]

theorem textBytes_array (items : List (BoundedJsonValue Number)) :
    textBytes (.array items) = 2 + (items.map textBytes).sum + (items.length - 1) := by
  have hopen : ('[' : Char).utf8Size = 1 := by decide
  have hclose : (']' : Char).utf8Size = 1 := by decide
  rw [textBytes, stringify, List.cons_append, Pages.utf8ByteLength_cons,
    Pages.utf8ByteLength_append,
    Pages.utf8ByteLength_cons, Pages.utf8ByteLength_nil, Pages.commaJoin_bytes, hopen, hclose,
    stringifyItems_eq_map, List.map_map, List.length_map]
  have hmap : items.map (utf8ByteLength ∘ stringify) = items.map textBytes := rfl
  rw [hmap]
  omega

theorem textBytes_object (members : List (ScriptString × BoundedJsonValue Number)) :
    textBytes (.object members) = 2 + (members.map memberBytes).sum + (members.length - 1) := by
  have hopen : ('{' : Char).utf8Size = 1 := by decide
  have hclose : ('}' : Char).utf8Size = 1 := by decide
  have hcolon : (':' : Char).utf8Size = 1 := by decide
  rw [textBytes, stringify, List.cons_append, Pages.utf8ByteLength_cons,
    Pages.utf8ByteLength_append,
    Pages.utf8ByteLength_cons, Pages.utf8ByteLength_nil, Pages.commaJoin_bytes, hopen, hclose,
    stringifyMembers_eq_map, List.map_map, List.length_map]
  have hmap : members.map (utf8ByteLength ∘
      fun member => quoteText member.fst ++ ':' :: stringify member.snd) =
        members.map memberBytes := by
    apply List.map_congr_left
    intro member _
    show utf8ByteLength (quoteText member.fst ++ ':' :: stringify member.snd) = memberBytes member
    rw [Pages.utf8ByteLength_append, Pages.utf8ByteLength_cons, hcolon, memberBytes, textBytes]
    omega
  rw [hmap]
  omega

structure SameSize (left right : BoundedJsonValue Number) : Prop where
  bytes : textBytes left = textBytes right
  depth : left.depth = right.depth
  members : left.memberCount = right.memberCount

theorem sameSize_array {items others : List (BoundedJsonValue Number)}
    (h : List.Forall₂ SameSize items others) : SameSize (.array items) (.array others) := by
  have hbytes : items.map textBytes = others.map textBytes := by
    induction h with
    | nil => rfl
    | cons hsame _ ih => rw [List.map_cons, List.map_cons, hsame.bytes, ih]
  have hdepth : itemsDepth items = itemsDepth others := by
    clear hbytes
    induction h with
    | nil => rfl
    | cons hsame _ ih => rw [itemsDepth, itemsDepth, hsame.depth, ih]
  have hmembers : itemsCount items = itemsCount others := by
    clear hbytes hdepth
    induction h with
    | nil => rfl
    | cons hsame _ ih => rw [itemsCount, itemsCount, hsame.members, ih]
  constructor
  · rw [textBytes_array, textBytes_array, hbytes, h.length_eq]
  · rw [BoundedJsonValue.depth, BoundedJsonValue.depth, hdepth]
  · rw [BoundedJsonValue.memberCount, BoundedJsonValue.memberCount, hmembers, h.length_eq]

theorem sameSize_object {members others : List (ScriptString × BoundedJsonValue Number)}
    (h : members.Perm others) : SameSize (.object members) (.object others) := by
  constructor
  · rw [textBytes_object, textBytes_object, (h.map memberBytes).sum_nat, h.length_eq]
  · rw [BoundedJsonValue.depth, BoundedJsonValue.depth]
    congr 1
    apply Nat.le_antisymm
    · rw [membersDepth_le_iff]
      intro member hmember
      exact membersDepth_le_iff.mp (Nat.le_refl _) member (h.mem_iff.mp hmember)
    · rw [membersDepth_le_iff]
      intro member hmember
      exact membersDepth_le_iff.mp (Nat.le_refl _) member (h.mem_iff.mpr hmember)
  · rw [BoundedJsonValue.memberCount, BoundedJsonValue.memberCount, membersCount_eq_sum,
      membersCount_eq_sum, h.length_eq, (h.map fun member => member.snd.memberCount).sum_nat]

theorem SameSize.trans {first second third : BoundedJsonValue Number}
    (hfirst : SameSize first second) (hsecond : SameSize second third) : SameSize first third :=
  ⟨hfirst.bytes.trans hsecond.bytes, hfirst.depth.trans hsecond.depth,
    hfirst.members.trans hsecond.members⟩

theorem sameSize_values {members : List (ScriptString × BoundedJsonValue Number)}
    {f : BoundedJsonValue Number -> BoundedJsonValue Number}
    (h : forall member, member ∈ members -> SameSize (f member.snd) member.snd) :
    SameSize (.object (members.map fun member => (member.fst, f member.snd)))
      (.object members) := by
  constructor
  · rw [textBytes_object, textBytes_object, List.length_map, List.map_map]
    congr 3
    apply List.map_congr_left
    intro member hmember
    show memberBytes (member.fst, f member.snd) = memberBytes member
    rw [memberBytes, memberBytes, (h member hmember).bytes]
  · rw [BoundedJsonValue.depth, BoundedJsonValue.depth]
    congr 1
    induction members with
    | nil => rfl
    | cons member rest ih =>
        rw [List.map_cons, membersDepth, membersDepth, (h member List.mem_cons_self).depth,
          ih fun other hother => h other (List.mem_cons_of_mem _ hother)]
  · rw [BoundedJsonValue.memberCount, BoundedJsonValue.memberCount, membersCount_eq_sum,
      membersCount_eq_sum, List.length_map, List.map_map]
    congr 2
    apply List.map_congr_left
    intro member hmember
    exact (h member hmember).members

theorem sameSize_rebuilt (value : BoundedJsonValue Number) :
    value.Ordered -> SameSize (rebuilt true value) value := by
  induction value using value_induction with
  | hscalar value harray hobject =>
      intro _
      cases value with
      | array items => exact absurd rfl (harray items)
      | object members => exact absurd rfl (hobject members)
      | null => exact ⟨rfl, rfl, rfl⟩
      | bool _ => exact ⟨rfl, rfl, rfl⟩
      | number _ => exact ⟨rfl, rfl, rfl⟩
      | string _ => exact ⟨rfl, rfl, rfl⟩
  | harray items ih =>
      intro hordered
      rw [rebuilt, rebuiltItems_eq_map]
      apply sameSize_array
      rw [List.forall₂_map_left_iff, List.forall₂_same]
      intro item hitem
      exact ih item hitem (orderedItems_iff.mp hordered item hitem)
  | hobject members ih =>
      intro hordered
      obtain ⟨_, hperm⟩ := perm_rebuilt_members true hordered.left
      rw [rebuilt_object]
      apply (sameSize_object hperm).trans
      rw [rebuiltMembers_eq_map]
      apply sameSize_values
      intro member hmember
      exact ih member hmember (orderedMembers_iff.mp hordered.right member hmember)

/-- A value is inspected to the size of the data that it holds. -/
theorem inspectJsonValue_eq {value : HeapValue Number} {data : BoundedJsonValue Number}
    (h : IsJsonValue value data) :
    inspectJsonValue value =
      .ok { bytes := textBytes data, depth := data.depth, members := data.memberCount } := by
  have hsame := sameSize_rebuilt data h.ordered
  rw [inspectJsonValue, h.canonicalizeJson_eq]
  show Except.ok _ = _
  rw [visit_eq 0 0 0 (Nat.le_refl 0), Nat.zero_add, Nat.zero_add, Nat.zero_max, hsame.depth,
    hsame.members]
  rw [← hsame.bytes]
  rfl

theorem inspectJsonValue_stored {value : BoundedJsonValue Number} (hordered : value.Ordered)
    (hdepth : value.depth ≤ canonicalJsonMaxDepth) :
    inspectJsonValue (stored 0 value) =
      .ok { bytes := textBytes value, depth := value.depth, members := value.memberCount } := by
  apply inspectJsonValue_eq
  refine ⟨json?_of_contents _ _ (contents_stored 0 value), ?_, hordered, ?_⟩
  · apply isAcyclic_stored
    intro ancestor hancestor
    exact absurd hancestor List.not_mem_nil
  · exact Nat.le_trans (height_le_depth value) hdepth

end

end Pagination
end Pertexo
