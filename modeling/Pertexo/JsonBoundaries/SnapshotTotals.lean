import Pertexo.JsonBoundaries.BoundedWalk
import Pertexo.JsonBoundaries.EngineAdmission

/-!
# What a snapshot comes to

## Totals of keys
-/

namespace Pertexo
namespace JsonBoundaries

open Canonical
open Library
open Pagination
open Values

section

variable {Number : Type}

mutual

/-- The identities of the containers within a value, the one met last first. -/
def ProgramValue.identities : ProgramValue Number -> List Nat
  | .array identity _ _ _ items => itemIdentities items ++ [identity]
  | .object identity _ _ _ members => memberIdentities members ++ [identity]
  | _ => []

def itemIdentities : List (Bool × OwnProperty (ProgramValue Number)) -> List Nat
  | [] => []
  | (_, .data value) :: rest => itemIdentities rest ++ value.identities
  | _ :: rest => itemIdentities rest

def memberIdentities : List (ScriptString × OwnProperty (ProgramValue Number)) -> List Nat
  | [] => []
  | (_, .data value) :: rest => memberIdentities rest ++ value.identities
  | _ :: rest => memberIdentities rest

end

/-- A snapshot is measured when it has been taken, so its bytes are not among the totals. -/
def snapshotLimits (limits : BoundedJsonLimits) : TotalLimits
  | .bytes => none
  | .members => some limits.members
  | .depth => some limits.depth

def reasonKind : BoundedJsonFailureReason -> Option LimitKind
  | .memberLimit => some .members
  | .depthLimit => some .depth
  | _ => none

def VisitState.spent (state : VisitState Number) : Totals :=
  counting 0 state.members

/-- The totals of keys at a depth: scalars are at any depth. -/
def visited (depth members levels : Nat) : Totals :=
  { bytes := 0, members, depth := if levels = 0 then 0 else depth + levels }

def itemsTotals (depth : Nat) (data : List (BoundedJsonValue Number)) : Totals :=
  visited depth (data.length + itemsCount data) (itemsDepth data)

def membersTotals (depth : Nat) (data : List (ScriptString × BoundedJsonValue Number)) : Totals :=
  visited depth (data.length + membersCount data) (membersDepth data)

def keyTotals (depth : Nat) (data : BoundedJsonValue Number) : Totals :=
  visited depth (1 + data.memberCount) data.depth

theorem visited_add (depth members others levels more : Nat) :
    visited depth members levels + visited depth others more =
      visited depth (members + others) (max levels more) := by
  ext
  · rfl
  · rfl
  · show max (if levels = 0 then 0 else depth + levels) (if more = 0 then 0 else depth + more) =
      if max levels more = 0 then 0 else depth + max levels more
    split <;> split <;> split <;> omega

theorem itemsTotals_cons (depth : Nat) (first : BoundedJsonValue Number)
    (rest : List (BoundedJsonValue Number)) :
    keyTotals depth first + itemsTotals depth rest = itemsTotals depth (first :: rest) := by
  rw [keyTotals, itemsTotals, itemsTotals, visited_add, itemsDepth, itemsCount, List.length_cons]
  congr 1
  omega

theorem membersTotals_cons (depth : Nat) (key : ScriptString) (first : BoundedJsonValue Number)
    (rest : List (ScriptString × BoundedJsonValue Number)) :
    keyTotals depth first + membersTotals depth rest =
      membersTotals depth ((key, first) :: rest) := by
  rw [keyTotals, membersTotals, membersTotals, visited_add, membersDepth, membersCount,
    List.length_cons]
  congr 1
  omega

theorem keyTotals_container (depth members levels : Nat) :
    ({ bytes := 0, members := 1, depth := depth + 1 } : Totals) +
        visited (depth + 1) members levels =
      visited depth (1 + members) (levels + 1) := by
  ext
  · rfl
  · rfl
  · show max (depth + 1) (if levels = 0 then 0 else depth + 1 + levels) =
      if levels + 1 = 0 then 0 else depth + (levels + 1)
    split <;> split <;> omega

/-!
## Visiting a key
-/

section

variable [ScriptNumber Number] {limits : BoundedJsonLimits}

theorem within_members {members : Nat} :
    Within (snapshotLimits limits) (counting 0 members) ↔ members ≤ limits.members := by
  constructor
  · intro h
    exact Nat.le_of_not_lt fun hmany => h .members ⟨limits.members, rfl, hmany⟩
  · intro hfew kind ⟨maximum, hlimit, hexceeds⟩
    cases kind with
    | bytes => cases hlimit
    | members =>
        cases hlimit
        exact absurd hfew (Nat.not_le_of_lt hexceeds)
    | depth =>
        cases hlimit
        exact Nat.not_lt_zero _ hexceeds

def VisitsAs (limits : BoundedJsonLimits) (depth : Nat) (value : ProgramValue Number)
    (data : BoundedJsonValue Number) : Prop :=
  forall (key : ScriptString) (state : VisitState Number) (target : JsonTarget Number)
    (rest : List (JsonTarget Number)),
    state.targets = target :: rest -> (value.identities ++ state.seen).Nodup ->
      Within (snapshotLimits limits) state.spent ->
        Accounts (snapshotLimits limits) reasonKind (state.spent + keyTotals depth data)
          { seen := value.identities ++ state.seen
            members := state.members + (1 + data.memberCount)
            targets := assignChild target key data :: rest }
          ((visitMachine Number limits).run [.key key (.data value) depth] state)

theorem primitiveJson_of_scalar {value : ProgramValue Number} {data : BoundedJsonValue Number}
    (hdata : value.json? = some data) (hscalar : data.isScalar = true) :
    primitiveJson value = some data ∧ value.identities = [] := by
  cases isScalar_of_json hdata hscalar with
  | null => exact ⟨rfl, rfl⟩
  | bool value => exact ⟨rfl, rfl⟩
  | string text => exact ⟨rfl, rfl⟩
  | finite value => exact ⟨rfl, rfl⟩
  | negativeZero => exact ⟨rfl, rfl⟩

theorem visitsAs_scalar {depth : Nat} {value : ProgramValue Number}
    {data : BoundedJsonValue Number} (hdata : value.json? = some data)
    (hscalar : data.isScalar = true) : VisitsAs limits depth value data := by
  intro key state target rest htargets _ _
  rcases primitiveJson_of_scalar hdata hscalar with ⟨hprimitive, hidentities⟩
  have hsize := sizes_of_isScalar hscalar
  have htotal : state.spent + keyTotals depth data = counting 0 (state.members + 1) := by
    rw [keyTotals, hsize.left, hsize.right]
    rfl
  rw [htotal, StackMachine.run_singleton, hidentities, hsize.right]
  show Accounts _ _ _ _ (visitKey limits key (.data value) depth state >>= _)
  rw [visitKey.eq_def]
  dsimp only
  by_cases hmany : state.members + 1 > limits.members
  · rw [if_pos hmany]
    exact accounts_error rfl ⟨limits.members, rfl, hmany⟩
  · rw [if_neg hmany, hprimitive, htargets]
    exact Or.inl ⟨StackMachine.run_nil _, within_members.mpr (Nat.le_of_not_lt hmany)⟩

omit [ScriptNumber Number] in
theorem within_entered {state : VisitState Number} {depth : Nat}
    (hfew : state.members + 1 ≤ limits.members) (hfits : depth ≤ limits.depth) :
    Within (snapshotLimits limits)
      (state.spent + { bytes := 0, members := 1, depth := depth }) := by
  intro kind ⟨maximum, hlimit, hexceeds⟩
  cases kind with
  | bytes => cases hlimit
  | members =>
      cases hlimit
      exact absurd hfew (Nat.not_le_of_lt hexceeds)
  | depth =>
      cases hlimit
      have hdepth : limits.depth < max 0 depth := hexceeds
      rw [Nat.zero_max] at hdepth
      exact absurd hfits (Nat.not_le_of_lt hdepth)

theorem accounts_visit (filled : JsonTarget Number) {key : ScriptString}
    {child : ProgramValue Number} {identity depth : Nat}
    (hidentity : child.identity? = some identity) (hprimitive : primitiveJson child = none)
    {keys : List (ScriptString × OwnProperty (ProgramValue Number))}
    {empty target : JsonTarget Number} {below : List (JsonTarget Number)}
    {identities : List Nat} {state : VisitState Number} {members levels : Nat}
    (hcontainer : inspectContainer limits child = .ok (keys, empty) ∨
      (inspectContainer limits child = .error .memberLimit ∧ limits.members < members))
    (htargets : state.targets = target :: below) (hfresh : identity ∉ state.seen)
    (hkeys : forall inner : VisitState Number, inner.targets = empty :: state.targets ->
      inner.seen = identity :: state.seen -> Within (snapshotLimits limits) inner.spent ->
        Accounts (snapshotLimits limits) reasonKind
          (inner.spent + visited (depth + 1) members levels)
          { seen := identities ++ inner.seen
            members := inner.members + members
            targets := filled :: state.targets }
          ((visitMachine Number limits).run (keyFrames keys (depth + 1)) inner)) :
    Accounts (snapshotLimits limits) reasonKind
      (state.spent + visited depth (1 + members) (levels + 1))
      { seen := identities ++ identity :: state.seen
        members := state.members + (1 + members)
        targets := assignChild target key filled.value :: below }
      ((visitMachine Number limits).run [.key key (.data child) depth] state) := by
  have hnew : ¬ state.seen.contains identity = true := fun h =>
    hfresh (List.contains_iff_mem.mp h)
  have htake : (visitMachine Number limits).take (.key key (.data child) depth) state =
      if state.members + 1 > limits.members then .error .memberLimit
      else if depth + 1 > limits.depth then .error .depthLimit
      else inspectContainer limits child >>= fun found =>
        .ok (keyFrames found.fst (depth + 1) ++ [.leave key],
          { seen := identity :: state.seen
            members := state.members + 1
            targets := found.snd :: state.targets }) := by
    show visitKey limits key (.data child) depth state = _
    rw [visitKey.eq_def]
    dsimp only
    rw [hprimitive]
    dsimp only
    rw [visitContainer, hidentity]
    dsimp only
    rw [if_neg hnew]
    rfl
  by_cases hmany : state.members + 1 > limits.members
  · rw [if_pos hmany] at htake
    rw [StackMachine.run_cons_error htake]
    refine accounts_error rfl ⟨limits.members, rfl, ?_⟩
    show limits.members < state.members + (1 + members)
    omega
  · by_cases hdeep : depth + 1 > limits.depth
    · rw [if_neg hmany, if_pos hdeep] at htake
      rw [StackMachine.run_cons_error htake]
      refine accounts_error rfl ⟨limits.depth, rfl, ?_⟩
      show limits.depth < max 0 (if levels + 1 = 0 then 0 else depth + (levels + 1))
      rw [if_neg (Nat.succ_ne_zero levels)]
      omega
    · rw [if_neg hmany, if_neg hdeep] at htake
      rcases hcontainer with hcontainer | ⟨hcontainer, hlong⟩
      · rw [hcontainer] at htake
        have hown : Accounts (snapshotLimits limits) reasonKind
            (state.spent + { bytes := 0, members := 1, depth := depth + 1 })
            (keyFrames keys (depth + 1) ++ [VisitFrame.leave key],
              ({ seen := identity :: state.seen
                 members := state.members + 1
                 targets := empty :: state.targets } : VisitState Number))
            ((visitMachine Number limits).take (.key key (.data child) depth) state) := by
          rw [htake]
          refine Or.inl ⟨rfl, ?_⟩
          exact within_entered (Nat.le_of_not_lt hmany) (Nat.le_of_not_lt hdeep)
        rw [← keyTotals_container]
        apply accounts_take hown rfl
        intro hpassed
        rw [StackMachine.run_append]
        rcases hkeys
            { seen := identity :: state.seen
              members := state.members + 1
              targets := empty :: state.targets } rfl rfl (within_counted hpassed) with
          ⟨hok, hwithin⟩ | ⟨failure, kind, herror, hkind, hexceeds⟩
        · refine Or.inl ⟨?_, hwithin⟩
          rw [hok]
          show (visitMachine Number limits).run [.leave key] _ = _
          rw [StackMachine.run_singleton]
          show (visitMachine Number limits).run [] _ = _
          rw [StackMachine.run_nil, htargets, Nat.add_assoc]
          rfl
        · rw [herror]
          exact accounts_error hkind hexceeds
      · rw [hcontainer] at htake
        rw [StackMachine.run_cons_error htake]
        refine accounts_error rfl ⟨limits.members, rfl, ?_⟩
        show limits.members < state.members + (1 + members)
        omega

theorem countP_of_jsonOfItems {items : List (Bool × OwnProperty (ProgramValue Number))}
    {data : List (BoundedJsonValue Number)} (h : jsonOfItems items = some data) :
    (items.countP fun item => item.fst && item.snd.isPresent) = items.length := by
  rw [List.countP_eq_length]
  intro item hitem
  rcases shown_of_jsonOfItems h hitem with ⟨value, rfl⟩
  rfl

theorem inspectContainer_array {items : List (Bool × OwnProperty (ProgramValue Number))}
    {data : List (BoundedJsonValue Number)} (hdata : jsonOfItems items = some data)
    (identity hiddenNames : Nat) :
    inspectContainer limits (.array identity false hiddenNames 0 items) =
        .ok (indexedItems 0 items, .items []) ∨
      (inspectContainer limits (.array identity false hiddenNames 0 items) =
          .error .memberLimit ∧ limits.members < data.length + itemsCount data) := by
  rw [inspectContainer]
  by_cases hlong : items.length > limits.members
  · refine Or.inr ⟨if_pos hlong, ?_⟩
    rw [length_of_jsonOfItems hdata] at hlong
    omega
  · apply Or.inl
    rw [if_neg hlong, if_neg (by decide), countP_of_jsonOfItems hdata,
      Nat.add_zero, if_neg (by simp)]

mutual

theorem visitsAs_value : forall (value : ProgramValue Number) {data : BoundedJsonValue Number},
    value.json? = some data -> data.Ordered -> forall depth, VisitsAs limits depth value data
  | .null, data, hdata, _, depth => by
      apply visitsAs_scalar hdata
      cases hdata
      rfl
  | .bool _, data, hdata, _, depth => by
      apply visitsAs_scalar hdata
      cases hdata
      rfl
  | .string _, data, hdata, _, depth => by
      apply visitsAs_scalar hdata
      cases hdata
      rfl
  | .number (.finite _), data, hdata, _, depth => by
      apply visitsAs_scalar hdata
      cases hdata
      rfl
  | .number .negativeZero, data, hdata, _, depth => by
      apply visitsAs_scalar hdata
      cases hdata
      rfl
  | .number .notFinite, data, hdata, _, depth => by cases hdata
  | .unsupported _, data, hdata, _, depth => by cases hdata
  | .array identity hasSymbols hiddenNames shownNames items, data, hdata, hordered, depth => by
      rcases array_of_json hdata with ⟨rfl, rfl, rfl, others, hitems, rfl⟩
      intro key state target below htargets hunshared hwithin
      rw [ProgramValue.identities, List.append_assoc] at hunshared ⊢
      have hfresh : identity ∉ state.seen := (List.nodup_cons.mp hunshared.of_append_right).left
      apply accounts_visit (.items others) rfl rfl
        (inspectContainer_array hitems identity 0) htargets hfresh
      intro inner hinner hseen hspent
      have hkeys := visitsAs_items items hitems hordered (depth + 1) 0 inner [] state.targets
        hinner (hseen ▸ hunshared) hspent
      exact hkeys
  | .object identity isPlain hasSymbols hiddenNames members, data, hdata, hordered, depth => by
      rcases object_of_json hdata with ⟨rfl, rfl, others, hmembers, rfl⟩
      intro key state target below htargets hunshared hwithin
      rw [ProgramValue.identities, List.append_assoc] at hunshared ⊢
      have hfresh : identity ∉ state.seen := (List.nodup_cons.mp hunshared.of_append_right).left
      apply accounts_visit (.members others) rfl rfl (Or.inl rfl) htargets hfresh
      intro inner hinner hseen hspent
      have hkeys := visitsAs_members members hmembers hordered.right (depth + 1) inner []
        state.targets hinner (hseen ▸ hunshared) hspent
      rw [foldl_defineProperty_of_ownOrder (by rw [List.nil_append]; exact hordered.left),
        List.nil_append] at hkeys
      exact hkeys

theorem visitsAs_items : forall (items : List (Bool × OwnProperty (ProgramValue Number)))
    {data : List (BoundedJsonValue Number)}, jsonOfItems items = some data -> OrderedItems data ->
      forall (depth index : Nat) (state : VisitState Number) (held : List (BoundedJsonValue Number))
        (below : List (JsonTarget Number)), state.targets = .items held :: below ->
          (itemIdentities items ++ state.seen).Nodup ->
            Within (snapshotLimits limits) state.spent ->
              Accounts (snapshotLimits limits) reasonKind (state.spent + itemsTotals depth data)
                { seen := itemIdentities items ++ state.seen
                  members := state.members + (data.length + itemsCount data)
                  targets := .items (held ++ data) :: below }
                ((visitMachine Number limits).run (keyFrames (indexedItems index items) depth)
                  state)
  | [], data, hdata, _, depth, index, state, held, below, htargets, _, hwithin => by
      cases hdata
      rw [List.append_nil, ← htargets]
      exact Or.inl ⟨StackMachine.run_nil _, hwithin⟩
  | (true, .data value) :: rest, data, hdata, hordered, depth, index, state, held, below,
      htargets, hunshared, hwithin => by
      rw [jsonOfItems] at hdata
      rcases Option.bind_eq_some_iff.mp hdata with ⟨first, hfirst, hdata⟩
      rcases Option.bind_eq_some_iff.mp hdata with ⟨others, hothers, hdata⟩
      cases hdata
      rw [itemIdentities, List.append_assoc] at hunshared ⊢
      have hvalue := visitsAs_value value hfirst hordered.left depth (scriptString (toString index))
        state (.items held) below htargets hunshared.of_append_right hwithin
      rw [← itemsTotals_cons, indexedItems, keyFrames, List.map_cons]
      apply accounts_cons hvalue rfl
      intro hpassed
      have hrest := visitsAs_items rest hothers hordered.right depth (index + 1) _
        (held ++ [first]) below rfl hunshared hpassed
      have hmembers : state.members + (1 + first.memberCount) +
          (others.length + itemsCount others) =
          state.members + ((first :: others).length + itemsCount (first :: others)) := by
        rw [List.length_cons, itemsCount]
        omega
      rw [List.append_assoc, List.singleton_append, hmembers] at hrest
      exact hrest
  | (true, .accessor _) :: _, data, hdata, _, _, _, _, _, _, _, _, _ => by cases hdata
  | (true, .missing) :: _, data, hdata, _, _, _, _, _, _, _, _, _ => by cases hdata
  | (false, _) :: _, data, hdata, _, _, _, _, _, _, _, _, _ => by cases hdata

theorem visitsAs_members :
    forall (members : List (ScriptString × OwnProperty (ProgramValue Number)))
      {data : List (ScriptString × BoundedJsonValue Number)},
        jsonOfMembers members = some data -> OrderedMembers data ->
          forall (depth : Nat) (state : VisitState Number)
            (held : List (ScriptString × BoundedJsonValue Number))
            (below : List (JsonTarget Number)), state.targets = .members held :: below ->
              (memberIdentities members ++ state.seen).Nodup ->
                Within (snapshotLimits limits) state.spent ->
                  Accounts (snapshotLimits limits) reasonKind
                    (state.spent + membersTotals depth data)
                    { seen := memberIdentities members ++ state.seen
                      members := state.members + (data.length + membersCount data)
                      targets := .members (data.foldl (fun result member =>
                        defineProperty member.fst member.snd result) held) :: below }
                    ((visitMachine Number limits).run (keyFrames members depth) state)
  | [], data, hdata, _, depth, state, held, below, htargets, _, hwithin => by
      cases hdata
      rw [List.foldl_nil, ← htargets]
      exact Or.inl ⟨StackMachine.run_nil _, hwithin⟩
  | (key, .data value) :: rest, data, hdata, hordered, depth, state, held, below, htargets,
      hunshared, hwithin => by
      rw [jsonOfMembers] at hdata
      rcases Option.bind_eq_some_iff.mp hdata with ⟨first, hfirst, hdata⟩
      rcases Option.bind_eq_some_iff.mp hdata with ⟨others, hothers, hdata⟩
      cases hdata
      rw [memberIdentities, List.append_assoc] at hunshared ⊢
      have hvalue := visitsAs_value value hfirst hordered.left depth key state (.members held)
        below htargets hunshared.of_append_right hwithin
      rw [← membersTotals_cons, keyFrames, List.map_cons]
      apply accounts_cons hvalue rfl
      intro hpassed
      have hrest := visitsAs_members rest hothers hordered.right depth _
        (defineProperty key first held) below rfl hunshared hpassed
      have hmembers : state.members + (1 + first.memberCount) +
            (others.length + membersCount others) =
          state.members + (((key, first) :: others).length +
            membersCount ((key, first) :: others)) := by
        rw [List.length_cons, membersCount]
        omega
      rw [hmembers] at hrest
      exact hrest
  | (_, .accessor _) :: _, data, hdata, _, _, _, _, _, _, _, _ => by cases hdata
  | (_, .missing) :: _, data, hdata, _, _, _, _, _, _, _, _ => by cases hdata

end

end

end

end JsonBoundaries
end Pertexo
