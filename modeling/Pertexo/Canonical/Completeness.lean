import Mathlib.Data.List.Perm.Basic
import Mathlib.Order.MinMax
import Pertexo.Canonical.Normalization

/-!
# Canonical JSON tells values apart

## What normalization builds
-/

namespace Pertexo
namespace Canonical

open Library
open Values

section

variable {Number : Type}

theorem rebuiltItems_eq_map (sortKeys : Bool) (items : List (BoundedJsonValue Number)) :
    rebuiltItems sortKeys items = items.map (rebuilt sortKeys) := by
  induction items with
  | nil => rfl
  | cons item rest ih => rw [rebuiltItems, ih, List.map_cons]

theorem rebuiltMembers_eq_map (sortKeys : Bool)
    (members : List (ScriptString × BoundedJsonValue Number)) :
    rebuiltMembers sortKeys members =
      members.map fun member => (member.fst, rebuilt sortKeys member.snd) := by
  induction members with
  | nil => rfl
  | cons member rest ih => rw [rebuiltMembers, ih, List.map_cons]

theorem keys_rebuiltMembers (sortKeys : Bool)
    (members : List (ScriptString × BoundedJsonValue Number)) :
    (rebuiltMembers sortKeys members).map Prod.fst = members.map Prod.fst := by
  rw [rebuiltMembers_eq_map, List.map_map]
  rfl

theorem rebuilt_object (sortKeys : Bool)
    (members : List (ScriptString × BoundedJsonValue Number)) :
    rebuilt sortKeys (.object members) =
      .object (buildObject (orderedKeys sortKeys (rebuiltMembers sortKeys members))) := by
  rw [rebuilt]
  rfl

theorem perm_rebuilt_members (sortKeys : Bool)
    {members : List (ScriptString × BoundedJsonValue Number)} (h : OwnOrder members) :
    OwnOrder (buildObject (orderedKeys sortKeys (rebuiltMembers sortKeys members))) ∧
      (buildObject (orderedKeys sortKeys (rebuiltMembers sortKeys members))).Perm
        (rebuiltMembers sortKeys members) := by
  have hkeys : ((rebuiltMembers sortKeys members).map Prod.fst).Nodup := by
    rw [keys_rebuiltMembers]
    exact nodup_of_ownOrder h
  have hperm := perm_orderedKeys sortKeys (rebuiltMembers sortKeys members)
  have hordered := (hperm.map Prod.fst).nodup_iff.mpr hkeys
  exact ⟨ownOrder_buildObject hordered, (perm_buildObject hordered).trans hperm⟩

mutual

theorem ordered_rebuilt (sortKeys : Bool) :
    forall value : BoundedJsonValue Number, value.Ordered -> (rebuilt sortKeys value).Ordered
  | .null, _ => trivial
  | .bool _, _ => trivial
  | .number _, _ => trivial
  | .string _, _ => trivial
  | .array items, h => orderedItems_rebuilt sortKeys items h
  | .object members, h => by
      rcases perm_rebuilt_members sortKeys h.left with ⟨horder, hperm⟩
      rw [rebuilt_object]
      refine ⟨horder, ?_⟩
      rw [orderedMembers_iff]
      intro member hmember
      exact orderedMembers_iff.mp (orderedMembers_rebuilt sortKeys members h.right) member
        (hperm.mem_iff.mp hmember)

theorem orderedItems_rebuilt (sortKeys : Bool) :
    forall items : List (BoundedJsonValue Number), OrderedItems items ->
      OrderedItems (rebuiltItems sortKeys items)
  | [], _ => trivial
  | item :: rest, h =>
      ⟨ordered_rebuilt sortKeys item h.left, orderedItems_rebuilt sortKeys rest h.right⟩

theorem orderedMembers_rebuilt (sortKeys : Bool) :
    forall members : List (ScriptString × BoundedJsonValue Number), OrderedMembers members ->
      OrderedMembers (rebuiltMembers sortKeys members)
  | [], _ => trivial
  | (_, value) :: rest, h =>
      ⟨ordered_rebuilt sortKeys value h.left, orderedMembers_rebuilt sortKeys rest h.right⟩

end

mutual

theorem rebuilt_false :
    forall value : BoundedJsonValue Number, value.Ordered -> rebuilt false value = value
  | .null, _ => rfl
  | .bool _, _ => rfl
  | .number _, _ => rfl
  | .string _, _ => rfl
  | .array items, h => congrArg BoundedJsonValue.array (rebuiltItems_false items h)
  | .object members, h => by
      rw [rebuilt_object, rebuiltMembers_false members h.right]
      show BoundedJsonValue.object (buildObject members) = _
      rw [buildObject_of_ownOrder h.left]

theorem rebuiltItems_false :
    forall items : List (BoundedJsonValue Number), OrderedItems items ->
      rebuiltItems false items = items
  | [], _ => rfl
  | item :: rest, h => by
      rw [rebuiltItems, rebuilt_false item h.left, rebuiltItems_false rest h.right]

theorem rebuiltMembers_false :
    forall members : List (ScriptString × BoundedJsonValue Number), OrderedMembers members ->
      rebuiltMembers false members = members
  | [], _ => rfl
  | (_, value) :: rest, h => by
      rw [rebuiltMembers, rebuilt_false value h.left, rebuiltMembers_false rest h.right]

end

theorem membersHeight_le_iff {members : List (ScriptString × BoundedJsonValue Number)} {n : Nat} :
    membersHeight members ≤ n ↔ forall member, member ∈ members -> height member.snd + 1 ≤ n := by
  induction members with
  | nil => simp [membersHeight]
  | cons member rest ih => simp [membersHeight, ih]

mutual

theorem height_rebuilt (sortKeys : Bool) :
    forall value : BoundedJsonValue Number, value.Ordered ->
      height (rebuilt sortKeys value) ≤ height value
  | .null, _ => Nat.le_refl _
  | .bool _, _ => Nat.le_refl _
  | .number _, _ => Nat.le_refl _
  | .string _, _ => Nat.le_refl _
  | .array items, h => itemsHeight_rebuilt sortKeys items h
  | .object members, h => by
      rcases perm_rebuilt_members sortKeys h.left with ⟨_, hperm⟩
      rw [rebuilt_object]
      show membersHeight _ ≤ membersHeight members
      rw [membersHeight_le_iff]
      intro member hmember
      exact membersHeight_le_iff.mp (membersHeight_rebuilt sortKeys members h.right) member
        (hperm.mem_iff.mp hmember)

theorem itemsHeight_rebuilt (sortKeys : Bool) :
    forall items : List (BoundedJsonValue Number), OrderedItems items ->
      itemsHeight (rebuiltItems sortKeys items) ≤ itemsHeight items
  | [], _ => Nat.le_refl _
  | item :: rest, h => by
      rw [rebuiltItems, itemsHeight, itemsHeight]
      exact max_le_max (Nat.succ_le_succ (height_rebuilt sortKeys item h.left))
        (itemsHeight_rebuilt sortKeys rest h.right)

theorem membersHeight_rebuilt (sortKeys : Bool) :
    forall members : List (ScriptString × BoundedJsonValue Number), OrderedMembers members ->
      membersHeight (rebuiltMembers sortKeys members) ≤ membersHeight members
  | [], _ => Nat.le_refl _
  | (_, value) :: rest, h => by
      rw [rebuiltMembers, membersHeight, membersHeight]
      exact max_le_max (Nat.succ_le_succ (height_rebuilt sortKeys value h.left))
        (membersHeight_rebuilt sortKeys rest h.right)

end

end

/-!
## Normalizing JSON data
-/

section

variable {Number : Type} [ScriptNumber Number]

theorem definedItems_of_jsonItems {items : List (ScriptSlot (HeapValue Number))}
    {data : List (BoundedJsonValue Number)} (h : jsonItems items = some data) :
    definedItems items = items.length := by
  induction items generalizing data with
  | nil => rfl
  | cons slot rest ih =>
      cases slot with
      | hole => cases h
      | accessor => cases h
      | data item =>
          rw [jsonItems, Option.bind_eq_bind, Option.bind_eq_some_iff] at h
          rcases h with ⟨first, _, h⟩
          rw [Option.bind_eq_bind, Option.bind_eq_some_iff] at h
          rcases h with ⟨others, hothers, _⟩
          rw [definedItems, List.countP_cons_of_pos rfl, List.length_cons]
          exact congrArg (· + 1) (ih hothers)

omit [ScriptNumber Number] in
theorem foldlM_setMember {members read : List (ScriptString × BoundedJsonValue Number)} :
    (members.map fun member =>
        (member.fst, (Except.ok member.snd : JsonResult (BoundedJsonValue Number)))).foldlM
          setMember read =
      Except.ok (members.foldl
        (fun result member => defineProperty member.fst member.snd result) read) := by
  induction members generalizing read with
  | nil => rfl
  | cons member rest ih =>
      rw [List.map_cons, List.foldlM_cons, List.foldl_cons, ← ih]
      rfl

theorem orderedKeys_map (sortKeys : Bool) {f : α -> β} (members : List (ScriptString × α)) :
    orderedKeys sortKeys (members.map fun member => (member.fst, f member.snd)) =
      (orderedKeys sortKeys members).map fun member => (member.fst, f member.snd) := by
  cases sortKeys with
  | false => rfl
  | true =>
      apply Eq.symm
      apply map_sortWith
      intro left _ right _
      rfl

mutual

theorem normalize_spec (context : NormalizationContext) (value : HeapValue Number)
    {data : BoundedJsonValue Number} (hdata : value.json? = some data)
    (hacyclic : value.IsAcyclic context.ancestors)
    (hdepth : context.depth + height data ≤ canonicalJsonMaxDepth) :
    normalize context value = Except.ok (rebuilt context.sortKeys data) := by
  have hshallow : ¬ canonicalJsonMaxDepth < context.depth :=
    Nat.not_lt.mpr ((Nat.le_add_right _ _).trans hdepth)
  match value with
  | .null =>
      cases hdata
      rw [normalize, if_neg hshallow]
      rfl
  | .bool value =>
      cases hdata
      rw [normalize, if_neg hshallow]
      rfl
  | .string text =>
      cases hdata
      rw [normalize, if_neg hshallow]
      rfl
  | .number (.finite value) =>
      cases hdata
      rw [normalize, if_neg hshallow]
      rfl
  | .number .negativeZero =>
      cases hdata
      rw [normalize, if_neg hshallow]
      rfl
  | .number .notFinite => cases hdata
  | .unsupported typeName => cases hdata
  | .array identity hasSymbols otherKeys items =>
      rw [HeapValue.json?] at hdata
      split at hdata
      · cases hdata
      · next hplain =>
        simp only [Bool.or_eq_true, not_or, Bool.not_eq_true, bne_eq_false_iff_eq] at hplain
        rw [Option.map_eq_some_iff] at hdata
        rcases hdata with ⟨ps, hitems, rfl⟩
        have hfresh : ¬ context.ancestors.contains identity = true := by
          simpa using hacyclic.left
        have hrest :=
          normalizeItems_spec (context.enter identity) 0 items hitems hacyclic.right hdepth
        rw [normalize, if_neg hshallow, if_neg hfresh, hplain.left, if_neg (by simp), hplain.right,
          definedItems_of_jsonItems hitems, if_neg (by simp), hrest]
        rfl
  | .object identity isPlain hasSymbols members =>
      rw [HeapValue.json?] at hdata
      split at hdata
      · cases hdata
      · next hplain =>
        simp only [Bool.or_eq_true, not_or, Bool.not_eq_true, Bool.not_eq_false'] at hplain
        rw [Option.map_eq_some_iff] at hdata
        rcases hdata with ⟨ps, hmembers, rfl⟩
        have hfresh : ¬ context.ancestors.contains identity = true := by
          simpa using hacyclic.left
        have hrest := normalizeMembers_spec (context.enter identity) members hmembers
          hacyclic.right hdepth
        rw [normalize, if_neg hshallow, if_neg hfresh, hplain.left, if_neg (by simp), hplain.right,
          if_neg (by simp), hrest,
          orderedKeys_map, foldlM_setMember]
        rfl

theorem normalizeItems_spec (context : NormalizationContext) (index : Nat)
    (items : List (ScriptSlot (HeapValue Number))) {data : List (BoundedJsonValue Number)}
    (hdata : jsonItems items = some data) (hacyclic : AreAcyclicItems context.ancestors items)
    (hdepth : context.depth + itemsHeight data ≤ canonicalJsonMaxDepth) :
    normalizeItems context index items = Except.ok (rebuiltItems context.sortKeys data) := by
  match items with
  | [] =>
      cases hdata
      rfl
  | .hole :: _ => cases hdata
  | .accessor :: _ => cases hdata
  | .data item :: rest =>
      rw [jsonItems, Option.bind_eq_bind, Option.bind_eq_some_iff] at hdata
      rcases hdata with ⟨first, hfirst, hdata⟩
      rw [Option.bind_eq_bind, Option.bind_eq_some_iff] at hdata
      rcases hdata with ⟨others, hothers, hdata⟩
      cases hdata
      rw [itemsHeight] at hdepth
      have hitem := normalize_spec (context.item index) item hfirst hacyclic.left
        (by show context.depth + 1 + height first ≤ _; omega)
      have hrest := normalizeItems_spec context (index + 1) rest hothers hacyclic.right (by omega)
      rw [normalizeItems, hitem, hrest]
      rfl

theorem normalizeMembers_spec (context : NormalizationContext)
    (members : List (ScriptString × ScriptSlot (HeapValue Number)))
    {data : List (ScriptString × BoundedJsonValue Number)}
    (hdata : jsonMembers members = some data)
    (hacyclic : AreAcyclicMembers context.ancestors members)
    (hdepth : context.depth + membersHeight data ≤ canonicalJsonMaxDepth) :
    normalizeMembers context members =
      (rebuiltMembers context.sortKeys data).map fun member =>
        (member.fst, (Except.ok member.snd : JsonResult (BoundedJsonValue Number))) := by
  match members with
  | [] =>
      cases hdata
      rfl
  | (_, .hole) :: _ => cases hdata
  | (_, .accessor) :: _ => cases hdata
  | (key, .data value) :: rest =>
      rw [jsonMembers, Option.bind_eq_bind, Option.bind_eq_some_iff] at hdata
      rcases hdata with ⟨first, hfirst, hdata⟩
      rw [Option.bind_eq_bind, Option.bind_eq_some_iff] at hdata
      rcases hdata with ⟨others, hothers, hdata⟩
      cases hdata
      rw [membersHeight] at hdepth
      have hvalue := normalize_spec (context.member key) value hfirst hacyclic.left
        (by show context.depth + 1 + height first ≤ _; omega)
      have hrest := normalizeMembers_spec context rest hothers hacyclic.right (by omega)
      rw [normalizeMembers, hvalue, hrest]
      rfl

end

end

/-!
## The same data in another order
-/

section

variable {Number : Type}

mutual

/-- Values are the same up to the order of keys when they are rebuilt to one value. -/
theorem sameUpToOrder_iff :
    forall value other : BoundedJsonValue Number, value.Ordered -> other.Ordered ->
      (SameUpToOrder value other ↔ rebuilt true value = rebuilt true other)
  | .null, other, _, _ => by
      cases other <;> simp [SameUpToOrder, rebuilt]
  | .bool _, other, _, _ => by
      cases other <;> simp [SameUpToOrder, rebuilt]
  | .number _, other, _, _ => by
      cases other <;> simp [SameUpToOrder, rebuilt]
  | .string _, other, _, _ => by
      cases other <;> simp [SameUpToOrder, rebuilt]
  | .array items, .array others, h, h' => by
      rw [rebuilt, rebuilt, BoundedJsonValue.array.injEq]
      exact sameItems_iff items others h h'
  | .array _, .null, _, _ => by simp [SameUpToOrder, rebuilt]
  | .array _, .bool _, _, _ => by simp [SameUpToOrder, rebuilt]
  | .array _, .number _, _, _ => by simp [SameUpToOrder, rebuilt]
  | .array _, .string _, _, _ => by simp [SameUpToOrder, rebuilt]
  | .array _, .object _, _, _ => by simp [SameUpToOrder, rebuilt]
  | .object members, .object others, h, h' => by
      have hmembers := sameMembers_iff members others h.right h'.right
      rcases perm_rebuilt_members true h.left with ⟨_, hperm⟩
      rcases perm_rebuilt_members true h'.left with ⟨_, hperm'⟩
      rw [rebuilt_object, rebuilt_object, BoundedJsonValue.object.injEq]
      show _ ∧ SameMembers members others ↔ _
      rw [hmembers]
      constructor
      · rintro ⟨hkeys, hsubset⟩
        have hnodup : ((rebuiltMembers true members).map Prod.fst).Nodup := by
          rw [keys_rebuiltMembers]
          exact nodup_of_ownOrder h.left
        have hlength : (rebuiltMembers true others).length ≤
            (rebuiltMembers true members).length := by
          have hsame := hkeys.length_eq
          rw [← keys_rebuiltMembers true members, ← keys_rebuiltMembers true others,
            List.length_map, List.length_map] at hsame
          exact Nat.le_of_eq hsame.symm
        have hsame : (rebuiltMembers true members).Perm (rebuiltMembers true others) :=
          (List.subperm_of_subset hnodup.of_map hsubset).perm_of_length_le hlength
        rw [orderedKeys_eq_of_perm hsame hnodup]
      · intro hsame
        rw [hsame] at hperm
        have hrebuilt := hperm.symm.trans hperm'
        constructor
        · have hkeys := hrebuilt.map Prod.fst
          rwa [keys_rebuiltMembers, keys_rebuiltMembers] at hkeys
        · exact hrebuilt.subset
  | .object _, .null, _, _ => by simp [SameUpToOrder, rebuilt]
  | .object _, .bool _, _, _ => by simp [SameUpToOrder, rebuilt]
  | .object _, .number _, _, _ => by simp [SameUpToOrder, rebuilt]
  | .object _, .string _, _, _ => by simp [SameUpToOrder, rebuilt]
  | .object _, .array _, _, _ => by simp [SameUpToOrder, rebuilt]

theorem sameItems_iff :
    forall items others : List (BoundedJsonValue Number), OrderedItems items ->
      OrderedItems others ->
        (SameItems items others ↔ rebuiltItems true items = rebuiltItems true others)
  | [], [], _, _ => by simp [SameItems]
  | [], _ :: _, _, _ => by simp [SameItems, rebuiltItems]
  | _ :: _, [], _, _ => by simp [SameItems, rebuiltItems]
  | item :: rest, other :: others, h, h' => by
      rw [SameItems, rebuiltItems, rebuiltItems, List.cons.injEq,
        sameUpToOrder_iff item other h.left h'.left, sameItems_iff rest others h.right h'.right]

theorem sameMembers_iff :
    forall members others : List (ScriptString × BoundedJsonValue Number),
      OrderedMembers members -> OrderedMembers others ->
        (SameMembers members others ↔ rebuiltMembers true members ⊆ rebuiltMembers true others)
  | [], others, _, _ => by simp [SameMembers, rebuiltMembers]
  | (key, value) :: rest, others, h, h' => by
      rw [SameMembers, rebuiltMembers, List.cons_subset,
        sameMembers_iff rest others h.right h', rebuiltMembers_eq_map true others, List.mem_map]
      apply and_congr_left'
      constructor
      · rintro ⟨other, hother, hsame⟩
        refine ⟨(key, other), hother, ?_⟩
        rw [(sameUpToOrder_iff value other h.left (orderedMembers_iff.mp h' _ hother)).mp hsame]
      · rintro ⟨⟨name, other⟩, hother, heq⟩
        rcases Prod.mk.inj heq with ⟨rfl, hvalue⟩
        refine ⟨other, hother, ?_⟩
        exact (sameUpToOrder_iff value other h.left (orderedMembers_iff.mp h' _ hother)).mpr
          hvalue.symm

end

mutual

/-- Rebuilding with sorted keys forgets the order that the keys had before. -/
theorem rebuilt_rebuilt (sortKeys : Bool) :
    forall value : BoundedJsonValue Number, value.Ordered ->
      rebuilt true (rebuilt sortKeys value) = rebuilt true value
  | .null, _ => rfl
  | .bool _, _ => rfl
  | .number _, _ => rfl
  | .string _, _ => rfl
  | .array items, h => congrArg BoundedJsonValue.array (rebuiltItems_rebuiltItems sortKeys items h)
  | .object members, h => by
      rcases perm_rebuilt_members sortKeys h.left with ⟨_, hperm⟩
      have hmembers := rebuiltMembers_rebuiltMembers sortKeys members h.right
      have hmap := hperm.map fun member : ScriptString × BoundedJsonValue Number =>
        (member.fst, rebuilt true member.snd)
      rw [← rebuiltMembers_eq_map, ← rebuiltMembers_eq_map, hmembers] at hmap
      rw [rebuilt_object sortKeys, rebuilt_object, rebuilt_object, orderedKeys_eq_of_perm hmap]
      apply (hmap.map Prod.fst).nodup_iff.mpr
      rw [keys_rebuiltMembers]
      exact nodup_of_ownOrder h.left

theorem rebuiltItems_rebuiltItems (sortKeys : Bool) :
    forall items : List (BoundedJsonValue Number), OrderedItems items ->
      rebuiltItems true (rebuiltItems sortKeys items) = rebuiltItems true items
  | [], _ => rfl
  | item :: rest, h => by
      rw [rebuiltItems, rebuiltItems, rebuiltItems, rebuilt_rebuilt sortKeys item h.left,
        rebuiltItems_rebuiltItems sortKeys rest h.right]

theorem rebuiltMembers_rebuiltMembers (sortKeys : Bool) :
    forall members : List (ScriptString × BoundedJsonValue Number), OrderedMembers members ->
      rebuiltMembers true (rebuiltMembers sortKeys members) = rebuiltMembers true members
  | [], _ => rfl
  | (_, value) :: rest, h => by
      rw [rebuiltMembers, rebuiltMembers, rebuiltMembers, rebuilt_rebuilt sortKeys value h.left,
        rebuiltMembers_rebuiltMembers sortKeys rest h.right]

end

/-!
## Parsed values
-/

mutual

theorem script_injective :
    forall value other : BoundedJsonValue Number, value.script = other.script -> value = other
  | .null, other, h => by
      cases other <;> simp_all [BoundedJsonValue.script, plainArray, plainObject]
  | .bool _, other, h => by
      cases other <;> simp_all [BoundedJsonValue.script, plainArray, plainObject]
  | .number _, other, h => by
      cases other <;> simp_all [BoundedJsonValue.script, plainArray, plainObject]
  | .string _, other, h => by
      cases other <;> simp_all [BoundedJsonValue.script, plainArray, plainObject]
  | .array items, other, h => by
      cases other with
      | array others =>
          simp only [BoundedJsonValue.script, plainArray, ScriptValue.array.injEq, true_and] at h
          rw [scriptItems_injective items others h]
      | _ => simp [BoundedJsonValue.script, plainArray, plainObject] at h
  | .object members, other, h => by
      cases other with
      | object others =>
          simp only [BoundedJsonValue.script, plainObject, ScriptValue.object.injEq, true_and] at h
          rw [scriptMembers_injective members others h]
      | _ => simp [BoundedJsonValue.script, plainArray, plainObject] at h

theorem scriptItems_injective :
    forall items others : List (BoundedJsonValue Number), scriptItems items = scriptItems others ->
      items = others
  | [], [], _ => rfl
  | [], _ :: _, h => by cases h
  | _ :: _, [], h => by cases h
  | item :: rest, other :: others, h => by
      rw [scriptItems, scriptItems, List.cons.injEq, ScriptSlot.data.injEq] at h
      rw [script_injective item other h.left, scriptItems_injective rest others h.right]

theorem scriptMembers_injective :
    forall members others : List (ScriptString × BoundedJsonValue Number),
      scriptMembers members = scriptMembers others -> members = others
  | [], [], _ => rfl
  | [], _ :: _, h => by cases h
  | _ :: _, [], h => by cases h
  | (_, value) :: rest, (_, other) :: others, h => by
      rw [scriptMembers, scriptMembers, List.cons.injEq, Prod.mk.injEq, ScriptSlot.data.injEq] at h
      rw [h.left.left, script_injective value other h.left.right,
        scriptMembers_injective rest others h.right]

end

end

/-!
## What is normalized is JSON data

A value that has a normal form holds JSON data within the depth limit.
-/

section

variable {Number : Type}

theorem ok_of_foldlM_setMember
    {members : List (ScriptString × JsonResult (BoundedJsonValue Number))}
    {read result : List (ScriptString × BoundedJsonValue Number)}
    (h : members.foldlM setMember read = .ok result) :
    forall member, member ∈ members -> exists value, member.snd = .ok value := by
  induction members generalizing read with
  | nil =>
      intro member hmember
      cases hmember
  | cons first rest ih =>
      intro member hmember
      rw [List.foldlM_cons] at h
      rcases exists_of_bind_eq_ok h with ⟨next, hfirst, hrest⟩
      rcases List.mem_cons.mp hmember with rfl | hmember
      · rcases exists_of_bind_eq_ok hfirst with ⟨value, hvalue, _⟩
        exact ⟨value, hvalue⟩
      · exact ih hrest member hmember

variable [ScriptNumber Number]

mutual

theorem json?_of_normalize (context : NormalizationContext) (value : HeapValue Number)
    {result : BoundedJsonValue Number} (h : normalize context value = .ok result) :
    exists data, value.json? = some data ∧
      context.depth + height data ≤ canonicalJsonMaxDepth := by
  rw [normalize.eq_def] at h
  split at h
  · cases h
  · next hshallow =>
    have hfits : context.depth ≤ canonicalJsonMaxDepth := Nat.le_of_not_lt hshallow
    match value with
    | .null => exact ⟨.null, rfl, hfits⟩
    | .bool value => exact ⟨.bool value, rfl, hfits⟩
    | .string text => exact ⟨.string text, rfl, hfits⟩
    | .number (.finite value) => exact ⟨.number value, rfl, hfits⟩
    | .number .negativeZero => exact ⟨.number ScriptNumber.zero, rfl, hfits⟩
    | .number .notFinite => cases h
    | .unsupported typeName => cases h
    | .array identity hasSymbols otherKeys items =>
        dsimp only at h
        split at h
        · cases h
        · split at h
          · cases h
          · next hsymbols =>
            split at h
            · cases h
            · next hcount =>
              rcases exists_of_map_eq_ok h with ⟨others, hothers, _⟩
              rcases jsonItems_of_normalize (context.enter identity) 0 items hothers hfits with
                ⟨data, hdata, hheight⟩
              have hdense := definedItems_of_jsonItems hdata
              have hother : otherKeys = 0 := by
                simp only [bne_iff_ne, ne_eq, not_not] at hcount
                omega
              refine ⟨.array data, ?_, hheight⟩
              rw [HeapValue.json?, hdata, hother, if_neg (by simpa using hsymbols)]
              rfl
    | .object identity isPlain hasSymbols members =>
        dsimp only at h
        split at h
        · cases h
        · split at h
          · cases h
          · next hplain =>
            split at h
            · cases h
            · next hsymbols =>
              rcases exists_of_map_eq_ok h with ⟨others, hothers, _⟩
              have hall := ok_of_foldlM_setMember hothers
              rcases jsonMembers_of_normalize (context.enter identity) members
                  (fun member hmember => hall member
                    ((perm_orderedKeys _ _).mem_iff.mpr hmember)) hfits with
                ⟨data, hdata, hheight⟩
              refine ⟨.object data, ?_, hheight⟩
              rw [HeapValue.json?, hdata, if_neg (by simpa [hplain] using hsymbols)]
              rfl

theorem jsonItems_of_normalize (context : NormalizationContext) (index : Nat)
    (items : List (ScriptSlot (HeapValue Number))) {result : List (BoundedJsonValue Number)}
    (h : normalizeItems context index items = .ok result)
    (hfits : context.depth ≤ canonicalJsonMaxDepth) :
    exists data, jsonItems items = some data ∧
      context.depth + itemsHeight data ≤ canonicalJsonMaxDepth := by
  match items with
  | [] => exact ⟨[], rfl, hfits⟩
  | .hole :: _ => cases h
  | .accessor :: _ => cases h
  | .data item :: rest =>
      rw [normalizeItems] at h
      rcases exists_of_bind_eq_ok h with ⟨first, hfirst, h⟩
      rcases exists_of_bind_eq_ok h with ⟨others, hothers, _⟩
      rcases json?_of_normalize (context.item index) item hfirst with ⟨data, hdata, hheight⟩
      rcases jsonItems_of_normalize context (index + 1) rest hothers hfits with
        ⟨more, hmore, hrest⟩
      refine ⟨data :: more, ?_, ?_⟩
      · rw [jsonItems, hdata, hmore]
        rfl
      · have hfirstHeight : context.depth + 1 + height data ≤ canonicalJsonMaxDepth := hheight
        rw [itemsHeight]
        omega

theorem jsonMembers_of_normalize (context : NormalizationContext)
    (members : List (ScriptString × ScriptSlot (HeapValue Number)))
    (h : forall member, member ∈ normalizeMembers context members ->
      exists value, member.snd = .ok value)
    (hfits : context.depth ≤ canonicalJsonMaxDepth) :
    exists data, jsonMembers members = some data ∧
      context.depth + membersHeight data ≤ canonicalJsonMaxDepth := by
  match members with
  | [] => exact ⟨[], rfl, hfits⟩
  | (key, .hole) :: rest =>
      rcases h _ List.mem_cons_self with ⟨_, hvalue⟩
      cases hvalue
  | (key, .accessor) :: rest =>
      rcases h _ List.mem_cons_self with ⟨_, hvalue⟩
      cases hvalue
  | (key, .data value) :: rest =>
      rw [normalizeMembers] at h
      rcases h _ List.mem_cons_self with ⟨first, hfirst⟩
      rcases json?_of_normalize (context.member key) value hfirst with ⟨data, hdata, hheight⟩
      rcases jsonMembers_of_normalize context rest
          (fun member hmember => h member (List.mem_cons_of_mem _ hmember)) hfits with
        ⟨more, hmore, hrest⟩
      refine ⟨(key, data) :: more, ?_, ?_⟩
      · rw [jsonMembers, hdata, hmore]
        rfl
      · have hfirstHeight : context.depth + 1 + height data ≤ canonicalJsonMaxDepth := hheight
        rw [membersHeight]
        omega

end

/-- A value that is canonicalized holds JSON data within the depth limit. -/
theorem canonicalizeJson_ok {value : HeapValue Number} {result : BoundedJsonValue Number}
    (h : canonicalizeJson value = .ok result) :
    exists data, value.json? = some data ∧ height data ≤ canonicalJsonMaxDepth := by
  rcases json?_of_normalize (rootContext true) value h with ⟨data, hdata, hheight⟩
  refine ⟨data, hdata, ?_⟩
  rw [← Nat.zero_add (height data)]
  exact hheight

end

end Canonical
end Pertexo
