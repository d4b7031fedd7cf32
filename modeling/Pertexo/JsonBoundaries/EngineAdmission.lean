import Pertexo.JsonBoundaries.WalkTotals

/-!
# What the walks of the engine admit

## Totals of a value
-/

namespace Pertexo
namespace JsonBoundaries

open Library
open Pagination
open Values

section

variable {Number : Type} [ScriptNumber Number]

def valueTotals (depth : Nat) (data : BoundedJsonValue Number) : Totals :=
  { bytes := textBytes data, members := data.memberCount, depth := depth - 1 + data.depth }

theorem bytes_sum {Item : Type} (items : List Item) (cost : Item -> Totals) :
    (items.map cost).sum.bytes = (items.map fun item => (cost item).bytes).sum := by
  induction items with
  | nil => rfl
  | cons item rest ih =>
      rw [List.map_cons, List.sum_cons, Totals.bytes_add, ih, List.map_cons, List.sum_cons]

theorem members_sum {Item : Type} (items : List Item) (cost : Item -> Totals) :
    (items.map cost).sum.members = (items.map fun item => (cost item).members).sum := by
  induction items with
  | nil => rfl
  | cons item rest ih =>
      rw [List.map_cons, List.sum_cons, Totals.members_add, ih, List.map_cons, List.sum_cons]

theorem depth_itemTotals (depth : Nat) (items : List (BoundedJsonValue Number)) :
    max depth (items.map (valueTotals (depth + 1))).sum.depth = depth + itemsDepth items := by
  induction items with
  | nil => exact Nat.max_eq_left (Nat.zero_le _)
  | cons item rest ih =>
      rw [List.map_cons, List.sum_cons, Totals.depth_add, itemsDepth]
      show max depth (max (depth + item.depth) _) = _
      omega

theorem depth_memberTotals (depth : Nat)
    (members : List (ScriptString × BoundedJsonValue Number)) :
    max depth (members.map fun member => valueTotals (depth + 1) member.snd).sum.depth =
      depth + membersDepth members := by
  induction members with
  | nil => exact Nat.max_eq_left (Nat.zero_le _)
  | cons member rest ih =>
      rw [List.map_cons, List.sum_cons, Totals.depth_add, membersDepth]
      show max depth (max (depth + member.snd.depth) _) = _
      omega

theorem valueTotals_array {depth : Nat} (hdepth : 0 < depth)
    (items : List (BoundedJsonValue Number)) :
    ownTotals depth items.length (items.length - 1) + (items.map (valueTotals (depth + 1))).sum =
      valueTotals depth (.array items) := by
  ext
  · rw [Totals.bytes_add, bytes_sum]
    show 2 + (items.length - 1) + (items.map textBytes).sum = textBytes (.array items)
    rw [textBytes_array]
    omega
  · rw [Totals.members_add, members_sum]
    show items.length + (items.map BoundedJsonValue.memberCount).sum = _
    rw [← itemsCount_eq_sum]
    rfl
  · rw [Totals.depth_add]
    show max depth _ = depth - 1 + (itemsDepth items + 1)
    rw [depth_itemTotals]
    omega

theorem sum_memberBytes (members : List (ScriptString × BoundedJsonValue Number)) :
    (members.map memberBytes).sum =
      (members.map fun member => Values.utf8ByteLength (quoteText member.fst) + 1).sum +
        (members.map fun member => textBytes member.snd).sum := by
  rw [← List.sum_map_add]
  rfl

theorem valueTotals_object {depth : Nat} (hdepth : 0 < depth)
    (members : List (ScriptString × BoundedJsonValue Number)) :
    ownTotals depth members.length
        ((members.map fun member => Values.utf8ByteLength (quoteText member.fst) + 1).sum +
          (members.length - 1)) +
        (members.map fun member => valueTotals (depth + 1) member.snd).sum =
      valueTotals depth (.object members) := by
  ext
  · rw [Totals.bytes_add, bytes_sum]
    show 2 + (_ + (members.length - 1)) + (members.map fun member => textBytes member.snd).sum =
      textBytes (.object members)
    rw [textBytes_object, sum_memberBytes]
    omega
  · rw [Totals.members_add, members_sum]
    show members.length + (members.map fun member => member.snd.memberCount).sum = _
    rw [← membersCount_eq_sum]
    rfl
  · rw [Totals.depth_add]
    show max depth _ = depth - 1 + (membersDepth members + 1)
    rw [depth_memberTotals]
    omega

end

/-!
## Walking a value
-/

section

variable {Number : Type} [DecimalNumber Number] {policy : WalkPolicy}

/-- Walking the value comes to the totals of the data, whatever was counted before. -/
def WalksAs (policy : WalkPolicy) (ancestors : List Nat) (depth : Nat)
    (value : ProgramValue Number) (data : BoundedJsonValue Number) : Prop :=
  depth - 1 ≤ policy.depth ->
    Spends policy.limits WalkFailure.kind WalkState.spent (walkMachine Number policy)
      (fun state => state.ancestors = ancestors) WalkState.charge (.value value depth)
      (valueTotals depth data)

theorem walksAs_scalar (hfair : FairPolicy policy) {ancestors : List Nat} {depth : Nat}
    {value : ProgramValue Number} {data : BoundedJsonValue Number}
    (hdata : value.json? = some data) (hscalar : data.isScalar = true) :
    WalksAs policy ancestors depth value data := by
  intro hdepth state hancestors hwithin
  refine ⟨hancestors, rfl, ?_⟩
  rcases primitiveBytes_spec hdata hscalar (policy.stopAfterBytes state.bytes) with
    ⟨amount, hamount, hmeasures⟩
  have hadded : Accounts policy.limits WalkFailure.kind
      (counting (state.bytes + amount + 0) state.members) (state.bytes + amount + 0)
      (addBytes policy state.bytes amount) := accounts_addBytes hwithin amount
  have hcounted := accounts_measured hfair hmeasures (Nat.le_refl _) 0 hadded
  have hsize := sizes_of_isScalar hscalar
  have hrun : (walkMachine Number policy).run [.value value depth] state =
      (addBytes policy state.bytes amount).map fun bytes => { state with bytes } := by
    rw [StackMachine.run_singleton]
    show takeFrame policy (.value value depth) state >>= _ = _
    rw [takeFrame, hamount]
    dsimp only
    cases addBytes policy state.bytes amount with
    | error failure => rfl
    | ok bytes => exact StackMachine.run_nil _
  have htotal : state.spent + valueTotals depth data =
      { bytes := state.bytes + textBytes data + 0, members := state.members,
        depth := depth - 1 } := by
    ext
    · rfl
    · show state.members + data.memberCount = state.members
      rw [hsize.right, Nat.add_zero]
    · show max 0 (depth - 1 + data.depth) = depth - 1
      rw [hsize.left, Nat.zero_max, Nat.add_zero]
  have hfinal : state.charge (valueTotals depth data) =
      { state with bytes := state.bytes + textBytes data + 0 } := by
    rw [WalkState.charge]
    show { state with members := state.members + data.memberCount, bytes := _ } = _
    rw [hsize.right, Nat.add_zero]
    rfl
  rw [hrun, htotal, hfinal]
  exact (hcounted.at_depth hdepth).map fun bytes => { state with bytes }

theorem run_exit (identity : Nat) (state : WalkState) :
    (walkMachine Number policy).run [.exit identity] state =
      .ok { state with ancestors := state.ancestors.erase identity } := by
  rw [StackMachine.run_singleton]
  exact StackMachine.run_nil _

/-- The last child is walked first, which leaves the sum of their totals as it is. -/
theorem accounts_childFrames {Key : Type} {children : List (Key × ProgramValue Number)}
    {data : List (BoundedJsonValue Number)} {ancestors : List Nat} {depth identity : Nat}
    (hchildren : List.Forall₂ (WalksAs policy (identity :: ancestors) depth)
      (children.map Prod.snd) data) (hdepth : depth - 1 ≤ policy.depth) {state : WalkState}
    (hancestors : state.ancestors = identity :: ancestors)
    (hwithin : Within policy.limits state.spent) :
    Accounts policy.limits WalkFailure.kind
      (state.spent + (data.map (valueTotals depth)).sum)
      { state.charge (data.map (valueTotals depth)).sum with ancestors }
      ((walkMachine Number policy).run (childFrames children depth identity) state) := by
  have hframes : List.Forall₂
      (Spends policy.limits WalkFailure.kind WalkState.spent (walkMachine Number policy)
        (fun inner => inner.ancestors = identity :: ancestors) WalkState.charge)
      (children.map fun child => WalkFrame.value child.snd depth).reverse
      (data.map (valueTotals depth)).reverse := by
    apply List.rel_reverse
    rw [List.forall₂_map_right_iff, List.forall₂_map_left_iff]
    rw [List.forall₂_map_left_iff] at hchildren
    exact hchildren.imp fun _ _ hchild => hchild hdepth
  have hwalk := accounts_frames WalkState.charge_add (fun _ => rfl) hframes hancestors hwithin
  rw [List.sum_reverse] at hwalk
  rw [childFrames, StackMachine.run_append]
  rcases hwalk with ⟨hok, hpassed⟩ | ⟨failure, kind, herror, hkind, hexceeds⟩
  · refine Or.inl ⟨?_, hpassed⟩
    rw [hok]
    show (walkMachine Number policy).run [.exit identity] _ = _
    rw [run_exit]
    congr 2
    show state.ancestors.erase identity = ancestors
    rw [hancestors, List.erase_cons_head]
  · rw [herror]
    exact accounts_error hkind hexceeds

theorem accounts_walkContainer {Key : Type} {value : ProgramValue Number}
    (hvalue : forall stopAfterBytes, primitiveBytes value stopAfterBytes = none)
    {children : List (Key × ProgramValue Number)} {data : List (BoundedJsonValue Number)}
    {ancestors : List Nat} {identity depth : Nat} {own : Totals} (hown : own.depth = depth)
    {state : WalkState} (hancestors : state.ancestors = ancestors)
    (htake : Accounts policy.limits WalkFailure.kind (state.spent + own)
      (childFrames children (depth + 1) identity,
        { state.charge own with ancestors := identity :: state.ancestors })
      (takeContainer policy value depth state))
    (hchildren : List.Forall₂ (WalksAs policy (identity :: ancestors) (depth + 1))
      (children.map Prod.snd) data) :
    Accounts policy.limits WalkFailure.kind
      (state.spent + (own + (data.map (valueTotals (depth + 1))).sum))
      (state.charge (own + (data.map (valueTotals (depth + 1))).sum))
      ((walkMachine Number policy).run [.value value depth] state) := by
  have hmachine : (walkMachine Number policy).take (.value value depth) state =
      takeContainer policy value depth state := by
    show takeFrame policy (.value value depth) state = _
    rw [takeFrame, hvalue]
  rw [← hmachine] at htake
  apply accounts_take htake rfl
  intro hpassed
  have hdeep : depth ≤ policy.depth := by
    apply Nat.le_of_not_lt
    intro hlt
    apply hpassed .depth
    refine ⟨policy.depth, rfl, Nat.lt_of_lt_of_le hlt ?_⟩
    rw [← hown]
    exact Nat.le_max_right _ _
  subst hancestors
  rw [← WalkState.charge_add]
  exact accounts_childFrames hchildren hdeep rfl (within_counted hpassed)

theorem sum_keyBytes {Left Right : Type} {members : List (ScriptString × Left)}
    {data : List (ScriptString × Right)}
    (h : members.map Prod.fst = data.map Prod.fst) :
    (members.map fun member => Values.utf8ByteLength (quoteText member.fst) + 1).sum =
      (data.map fun member => Values.utf8ByteLength (quoteText member.fst) + 1).sum := by
  have hmap := congrArg
    (List.map fun key => Values.utf8ByteLength (quoteText key) + 1) h
  rw [List.map_map, List.map_map] at hmap
  exact congrArg List.sum hmap

mutual

theorem walksAs_value (hfair : FairPolicy policy) :
    forall (value : ProgramValue Number) {data : BoundedJsonValue Number},
      value.json? = some data -> forall {ancestors : List Nat} {depth : Nat}, 0 < depth ->
        value.IsAcyclic ancestors -> WalksAs policy ancestors depth value data
  | .null, data, hdata, ancestors, depth, _, _ => by
      apply walksAs_scalar hfair hdata
      cases hdata
      rfl
  | .bool _, data, hdata, ancestors, depth, _, _ => by
      apply walksAs_scalar hfair hdata
      cases hdata
      rfl
  | .string _, data, hdata, ancestors, depth, _, _ => by
      apply walksAs_scalar hfair hdata
      cases hdata
      rfl
  | .number (.finite _), data, hdata, ancestors, depth, _, _ => by
      apply walksAs_scalar hfair hdata
      cases hdata
      rfl
  | .number .negativeZero, data, hdata, ancestors, depth, _, _ => by
      apply walksAs_scalar hfair hdata
      cases hdata
      rfl
  | .number .notFinite, data, hdata, ancestors, depth, _, _ => by cases hdata
  | .unsupported _, data, hdata, ancestors, depth, _, _ => by cases hdata
  | .array identity hasSymbols hiddenNames shownNames items, data, hdata, ancestors, depth,
      hdepth, hacyclic => by
      rcases array_of_json hdata with ⟨rfl, rfl, rfl, others, hitems, rfl⟩
      have hchildren := walksAs_items hfair items hitems (Nat.succ_pos depth) hacyclic.right 0
      intro _ state hancestors hwithin
      refine ⟨hancestors, rfl, ?_⟩
      have hfresh : identity ∉ state.ancestors := by
        rw [hancestors]
        exact hacyclic.left
      rw [← valueTotals_array hdepth, ← length_of_jsonOfItems hitems]
      exact accounts_walkContainer (fun _ => rfl) rfl hancestors
        (accounts_takeArray hfair hitems hfresh hwithin) hchildren
  | .object identity isPlain hasSymbols hiddenNames members, data, hdata, ancestors, depth,
      hdepth, hacyclic => by
      rcases object_of_json hdata with ⟨rfl, rfl, others, hmembers, rfl⟩
      have hchildren := walksAs_members hfair members hmembers (Nat.succ_pos depth)
        hacyclic.right
      intro _ state hancestors hwithin
      refine ⟨hancestors, rfl, ?_⟩
      have hfresh : identity ∉ state.ancestors := by
        rw [hancestors]
        exact hacyclic.left
      have hkeys : (readMembers members).map Prod.fst = others.map Prod.fst := by
        rw [keys_readMembers fun _ hmember => data_of_jsonOfMembers hmembers hmember,
          keys_of_jsonOfMembers hmembers]
      have hlength : (readMembers members).length = others.length := by
        have hsame := congrArg List.length hkeys
        rwa [List.length_map, List.length_map] at hsame
      have hvalues : (others.map fun member => valueTotals (depth + 1) member.snd) =
          (others.map Prod.snd).map (valueTotals (depth + 1)) := by
        rw [List.map_map]
        rfl
      rw [← valueTotals_object hdepth, ← sum_keyBytes hkeys, ← hlength,
        ← keyTextBytes_zero, hvalues]
      exact accounts_walkContainer (fun _ => rfl) rfl hancestors
        (accounts_takeObject hfair hfresh hwithin) hchildren

theorem walksAs_items (hfair : FairPolicy policy) :
    forall (items : List (Bool × OwnProperty (ProgramValue Number)))
      {data : List (BoundedJsonValue Number)}, jsonOfItems items = some data ->
        forall {ancestors : List Nat} {depth : Nat}, 0 < depth ->
          AreAcyclicItems ancestors items -> forall index,
            List.Forall₂ (WalksAs policy ancestors depth)
              ((shownItems index items).map Prod.snd) data
  | [], data, hdata, ancestors, depth, _, _, index => by
      cases hdata
      exact List.Forall₂.nil
  | (true, .data value) :: rest, data, hdata, ancestors, depth, hdepth, hacyclic, index => by
      rw [jsonOfItems] at hdata
      rcases Option.bind_eq_some_iff.mp hdata with ⟨first, hfirst, hdata⟩
      rcases Option.bind_eq_some_iff.mp hdata with ⟨others, hothers, hdata⟩
      cases hdata
      exact List.Forall₂.cons (walksAs_value hfair value hfirst hdepth hacyclic.left)
        (walksAs_items hfair rest hothers hdepth hacyclic.right (index + 1))
  | (true, .accessor _) :: _, data, hdata, ancestors, depth, _, _, index => by cases hdata
  | (true, .missing) :: _, data, hdata, ancestors, depth, _, _, index => by cases hdata
  | (false, _) :: _, data, hdata, ancestors, depth, _, _, index => by cases hdata

theorem walksAs_members (hfair : FairPolicy policy) :
    forall (members : List (ScriptString × OwnProperty (ProgramValue Number)))
      {data : List (ScriptString × BoundedJsonValue Number)}, jsonOfMembers members = some data ->
        forall {ancestors : List Nat} {depth : Nat}, 0 < depth ->
          AreAcyclicMembers ancestors members ->
            List.Forall₂ (WalksAs policy ancestors depth)
              ((readMembers members).map Prod.snd) (data.map Prod.snd)
  | [], data, hdata, ancestors, depth, _, _ => by
      cases hdata
      exact List.Forall₂.nil
  | (_, .data value) :: rest, data, hdata, ancestors, depth, hdepth, hacyclic => by
      rw [jsonOfMembers] at hdata
      rcases Option.bind_eq_some_iff.mp hdata with ⟨first, hfirst, hdata⟩
      rcases Option.bind_eq_some_iff.mp hdata with ⟨others, hothers, hdata⟩
      cases hdata
      exact List.Forall₂.cons (walksAs_value hfair value hfirst hdepth hacyclic.left)
        (walksAs_members hfair rest hothers hdepth hacyclic.right)
  | (_, .accessor _) :: _, data, hdata, ancestors, depth, _, _ => by cases hdata
  | (_, .missing) :: _, data, hdata, ancestors, depth, _, _ => by cases hdata

end

/-- A walk over JSON data comes to the size, the members and the depth of the data. -/
theorem walk_accounts (hfair : FairPolicy policy) {value : ProgramValue Number}
    {data : BoundedJsonValue Number} (hdata : value.json? = some data)
    (hacyclic : value.IsAcyclic []) :
    Accounts policy.limits WalkFailure.kind (valueTotals 1 data) () (walk policy value) := by
  have hvalue := walksAs_value hfair value hdata Nat.one_pos hacyclic (Nat.zero_le _)
    { ancestors := [], members := 0, bytes := 0 } rfl within_zero
  have hwalk := hvalue.right.right.map fun _ => ()
  have hzero : WalkState.spent { ancestors := [], members := 0, bytes := 0 } = 0 := rfl
  rw [hzero, zero_add] at hwalk
  exact hwalk

/-!
## Early ends

A string is measured only as far as the bytes that are left. The walk comes to the same result
as one that measures every string to its end.
-/

def wholePolicy (policy : WalkPolicy) : WalkPolicy :=
  { policy with stopAfterBytes := fun _ => none }

omit [DecimalNumber Number] in
theorem foldlM_addBytes {amounts : List Nat} (hne : amounts ≠ []) (bytes : Nat) :
    amounts.foldlM (addBytes policy) bytes = addBytes policy bytes amounts.sum := by
  induction amounts generalizing bytes with
  | nil => exact absurd rfl hne
  | cons amount rest ih =>
      rw [List.foldlM_cons, List.sum_cons]
      cases rest with
      | nil =>
          rw [List.sum_nil, Nat.add_zero]
          show addBytes policy bytes amount >>= pure = _
          exact bind_pure _
      | cons next others =>
          simp only [ih (List.cons_ne_nil next others)]
          rw [addBytes, addBytes]
          by_cases hfirst : bytes + amount ≤ policy.bytes
          · rw [if_pos hfirst]
            show addBytes policy (bytes + amount) _ = _
            rw [addBytes, Nat.add_assoc]
          · rw [if_neg hfirst, if_neg (by omega)]
            rfl

omit [DecimalNumber Number] in
/-- What a length that was measured within the budget adds is what the whole length adds. -/
theorem addBytes_measured (hfair : FairPolicy policy) {current length whole : Nat}
    (hmeasures : Measures (policy.stopAfterBytes current) length whole) (extra : Nat) :
    addBytes policy current (length + extra) = addBytes policy current (whole + extra) := by
  rw [Measures.eq_def] at hmeasures
  split at hmeasures
  · rw [hmeasures]
  · next maximum hmaximum =>
    have hbudget := hfair.budget current maximum hmaximum
    rcases hmeasures with hsame | ⟨hlength, hwhole⟩
    · rw [hsame]
    · rw [addBytes, addBytes, if_neg (by omega), if_neg (by omega)]

omit [DecimalNumber Number] in
theorem readMember_whole (hfair : FairPolicy policy) (counts : KeyCounts)
    (member : ScriptString × ProgramValue Number) :
    readMember policy counts member = readMember (wholePolicy policy) counts member := by
  have hadd : forall separated : Nat,
      (policy.keyAmounts (jsonStringByteLength member.fst
          (policy.stopAfterBytes separated))).foldlM (addBytes policy) separated =
        (policy.keyAmounts (jsonStringByteLength member.fst none)).foldlM (addBytes policy)
          separated := by
    intro separated
    have hne : forall length, policy.keyAmounts length ≠ [] := by
      intro length hnil
      have hsum := hfair.keyAmounts length
      rw [hnil] at hsum
      exact absurd hsum (Nat.succ_ne_zero length).symm
    have hmeasures := measures_jsonStringByteLength member.fst (policy.stopAfterBytes separated)
    rw [foldlM_addBytes (hne _), foldlM_addBytes (hne _), hfair.keyAmounts, hfair.keyAmounts,
      addBytes_measured hfair hmeasures 1, jsonStringByteLength_none]
  rw [readMember, readMember]
  simp only [hadd]
  rfl

theorem takeFrame_whole (hfair : FairPolicy policy) (frame : WalkFrame Number)
    (state : WalkState) :
    takeFrame policy frame state = takeFrame (wholePolicy policy) frame state := by
  cases frame with
  | exit identity => rfl
  | value item depth =>
      cases item with
      | null => rfl
      | bool value => rfl
      | number value =>
          cases value with
          | finite value => rfl
          | negativeZero => rfl
          | notFinite => rfl
      | string text =>
          have hmeasures := measures_jsonStringByteLength text (policy.stopAfterBytes state.bytes)
          have hadd := addBytes_measured hfair hmeasures 0
          rw [← jsonStringByteLength_none] at hadd
          show addBytes policy state.bytes
              (jsonStringByteLength text (policy.stopAfterBytes state.bytes) + 0) >>=
                (fun bytes => pure ([], { state with bytes })) =
            addBytes policy state.bytes (jsonStringByteLength text none + 0) >>=
              fun bytes => pure ([], { state with bytes })
          rw [hadd]
      | unsupported typeName => rfl
      | array identity hasSymbols hiddenNames shownNames items => rfl
      | object identity isPlain hasSymbols hiddenNames members =>
          have hread : (readMember policy :
              KeyCounts -> ScriptString × ProgramValue Number -> Except WalkFailure KeyCounts) =
                readMember (wholePolicy policy) := by
            funext counts member
            exact readMember_whole hfair counts member
          show takeContainer policy (.object identity isPlain hasSymbols hiddenNames members)
              depth state =
            takeContainer (wholePolicy policy)
              (.object identity isPlain hasSymbols hiddenNames members) depth state
          rw [takeContainer, takeContainer, hread]
          rfl

/-- Early ends do not change the result of a walk, whatever the value is. -/
theorem walk_whole (hfair : FairPolicy policy) (value : ProgramValue Number) :
    walk policy value = walk (wholePolicy policy) value := by
  rw [walk, walk]
  congr 1
  exact StackMachine.run_congr (takeFrame_whole hfair) _ _

end

/-!
## Checkpoints and executables
-/

theorem fair_checkpointPolicy : FairPolicy checkpointPolicy where
  arrayItems := Nat.le_refl _
  budget := by
    intro bytes maximum h
    cases h
    show (262144 : Int) - bytes ≤ 262144
    omega
  keyAmounts := fun length => List.sum_singleton

theorem fair_executablePolicy (limits : JsonBounds) : FairPolicy (executablePolicy limits) where
  arrayItems := Nat.le_refl _
  budget := by
    intro bytes maximum h
    cases h
    exact le_refl _
  keyAmounts := fun length => by simp [executablePolicy]

end JsonBoundaries
end Pertexo
