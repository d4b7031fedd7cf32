import Pertexo.JsonBoundaries.BoundariesAgree
import Pertexo.StoredValues.Copies

/-!
# Values that are copied

A value is copied exactly when it is plain JSON data within the limits.

## Keys that have been read
-/

namespace Pertexo
namespace StoredValues

open Canonical
open JsonBoundaries
open Library
open Pages
open Pagination
open Values

section

variable {Number : Type}

theorem readInlineItems_ok {items : List (Bool × OwnProperty (ProgramValue Number))} {index : Nat}
    {read final : InlineChildren Number}
    (h : (enumeratedItems index items).foldlM readInlineItem read = .ok final) :
    final.children.length ≤ read.children.length + items.length ∧
      (final.children.length = read.children.length + items.length ->
        (forall item, item ∈ items -> exists value, item = (true, .data value)) ∧
          final.children = read.children ++ itemChildren index items) := by
  induction items generalizing index read with
  | nil =>
      cases h
      refine ⟨Nat.le_refl _, fun _ => ⟨fun item hitem => absurd hitem List.not_mem_nil, ?_⟩⟩
      rw [itemChildren, heldItems, List.map_nil, List.append_nil]
  | cons item rest ih =>
      rw [List.length_cons]
      -- an item that is passed over leaves fewer children than items
      have hskipped : (enumeratedItems (index + 1) rest).foldlM readInlineItem read = .ok final ->
          final.children.length ≤ read.children.length + (rest.length + 1) ∧
            (final.children.length = read.children.length + (rest.length + 1) ->
              (forall other, other ∈ item :: rest -> exists value, other = (true, .data value)) ∧
                final.children = read.children ++ itemChildren index (item :: rest)) := by
        intro hrest
        have hbound := (ih hrest).left
        constructor
        · omega
        · intro hlength
          omega
      rcases item with ⟨isEnumerable, property⟩
      cases isEnumerable with
      | false =>
          cases property with
          | missing => exact hskipped h
          | accessor answer => exact hskipped h
          | data value => exact hskipped h
      | true =>
          cases property with
          | missing => exact hskipped h
          | accessor answer => cases h
          | data value =>
              have hkeys : enumeratedItems index ((true, .data value) :: rest) =
                  (index, .data value) :: enumeratedItems (index + 1) rest := rfl
              rw [hkeys, List.foldlM_cons] at h
              rcases exists_of_bind_eq_ok h with ⟨next, hnext, hrest⟩
              rcases readInlineItem_ok hnext with ⟨found, hfound, _, _, hchildren⟩
              cases hfound
              have hothers := ih hrest
              rw [hchildren, List.length_append, List.length_singleton] at hothers
              constructor
              · omega
              · intro hlength
                rcases hothers.right (by omega) with ⟨hdata, hfinal⟩
                constructor
                · intro other hother
                  rcases List.mem_cons.mp hother with rfl | hmem
                  · exact ⟨value, rfl⟩
                  · exact hdata other hmem
                · rw [hfinal, itemChildren_cons, List.append_assoc]
                  rfl

theorem readInlineMembers_ok
    {members : List (ScriptString × OwnProperty (ProgramValue Number))}
    {read final : InlineChildren Number} (h : members.foldlM readInlineMember read = .ok final) :
    (forall member, member ∈ members -> exists value, member.snd = .data value) ∧
      final.children = read.children ++ readMembers members := by
  induction members generalizing read with
  | nil =>
      cases h
      refine ⟨fun member hmember => absurd hmember List.not_mem_nil, ?_⟩
      rw [readMembers, List.append_nil]
  | cons member rest ih =>
      rw [List.foldlM_cons] at h
      rcases exists_of_bind_eq_ok h with ⟨next, hnext, hrest⟩
      rcases readInlineMember_ok hnext with ⟨value, hvalue, hchildren⟩
      rcases ih hrest with ⟨hdata, hfinal⟩
      rcases member with ⟨key, property⟩
      cases hvalue
      constructor
      · intro other hother
        rcases List.mem_cons.mp hother with rfl | hmem
        · exact ⟨value, rfl⟩
        · exact hdata other hmem
      · rw [hfinal, hchildren, List.append_assoc]
        rfl

theorem countP_of_data {items : List (Bool × OwnProperty (ProgramValue Number))}
    (h : forall item, item ∈ items -> exists value, item = (true, .data value)) :
    (items.countP fun item => item.snd.isPresent) = items.length := by
  rw [List.countP_eq_length]
  intro item hitem
  rcases h item hitem with ⟨value, rfl⟩
  rfl

theorem readInlineChildren_array_ok {identity hiddenNames shownNames members bytes : Nat}
    {hasSymbols : Bool} {items : List (Bool × OwnProperty (ProgramValue Number))}
    {read : InlineChildren Number} {target : JsonTarget Number}
    (h : readInlineChildren (.array identity hasSymbols hiddenNames shownNames items) members
      bytes = .ok (read, target)) :
    hasSymbols = false ∧ hiddenNames = 0 ∧ shownNames = 0 ∧
      (forall item, item ∈ items -> exists value, item = (true, .data value)) ∧
        read.children = itemChildren 0 items := by
  rw [readInlineChildren] at h
  split at h
  · cases h
  · rcases exists_of_bind_eq_ok h with ⟨found, hfound, h⟩
    rcases exists_of_bind_eq_ok h with ⟨_, hnames, h⟩
    rcases exists_of_bind_eq_ok h with ⟨_, hown, h⟩
    rcases exists_of_bind_eq_ok h with ⟨total, _, h⟩
    cases h
    have hshown : shownNames = 0 := by
      rw [readFurtherNames] at hnames
      split at hnames
      · next hzero => exact hzero
      · cases hnames
    rw [assertInlineOwnProperties] at hown
    split at hown
    · cases hown
    · next hproperties =>
      simp only [Bool.or_eq_true, bne_iff_ne, not_or, not_not, Bool.not_eq_true] at hproperties
      rcases hproperties with ⟨⟨hsymbols, hcount⟩, hlengths⟩
      rcases (readInlineItems_ok hfound).right (by rw [hcount]; exact (Nat.zero_add _).symm) with
        ⟨hdata, hchildren⟩
      rw [countP_of_data hdata] at hlengths
      exact ⟨hsymbols, by omega, hshown, hdata, hchildren⟩

theorem readInlineChildren_object_ok {identity hiddenNames members bytes : Nat}
    {isPlain hasSymbols : Bool} {keys : List (ScriptString × OwnProperty (ProgramValue Number))}
    {read : InlineChildren Number} {target : JsonTarget Number}
    (h : readInlineChildren (.object identity isPlain hasSymbols hiddenNames keys) members
      bytes = .ok (read, target)) :
    isPlain = true ∧ hasSymbols = false ∧ hiddenNames = 0 ∧
      (forall member, member ∈ keys -> exists value, member.snd = .data value) ∧
        read.children = readMembers keys := by
  rw [readInlineChildren] at h
  split at h
  · cases h
  · next hplain =>
    rcases exists_of_bind_eq_ok h with ⟨found, hfound, h⟩
    rcases exists_of_bind_eq_ok h with ⟨_, hown, h⟩
    rcases exists_of_bind_eq_ok h with ⟨total, _, h⟩
    cases h
    rcases readInlineMembers_ok hfound with ⟨hdata, hchildren⟩
    rw [List.nil_append] at hchildren
    rw [assertInlineOwnProperties, hchildren, length_readMembers hdata] at hown
    split at hown
    · cases hown
    · next hproperties =>
      simp only [Bool.or_eq_true, bne_iff_ne, not_or, not_not, Bool.not_eq_true] at hproperties
      rw [Bool.not_eq_true, Bool.not_eq_false'] at hplain
      exact ⟨hplain, hproperties.left, by omega, hdata, hchildren⟩

/-!
## Values that have been taken
-/

theorem cloneContainer_ok {item : ProgramValue Number} {containerDepth : Nat} {key : ScriptString}
    {state : CloneState Number} {taken : List (CloneFrame Number) × CloneState Number}
    (h : cloneContainer item containerDepth key state = .ok taken) :
    exists source read target, item.identity? = some source ∧ source ∉ state.active ∧
      readInlineChildren item state.members state.bytes = .ok (read, target) ∧
        taken.fst = cloneFrames read.children (containerDepth + 1) source key ∧
          taken.snd.active = source :: state.active := by
  rw [cloneContainer] at h
  split at h
  · cases h
  · next source hsource =>
    split at h
    · cases h
    · split at h
      · cases h
      · next hfresh =>
        rcases exists_of_bind_eq_ok h with ⟨⟨read, target⟩, hread, h⟩
        cases h
        rw [List.contains_iff_mem] at hfresh
        exact ⟨source, read, target, hsource, hfresh, hread, rfl, rfl⟩

theorem assignValue_ok {key : ScriptString} {amount : Nat} {scalar : BoundedJsonValue Number}
    {state : CloneState Number} {taken : List (CloneFrame Number) × CloneState Number}
    (h : assignValue key amount scalar state = .ok taken) :
    taken.fst = [] ∧ taken.snd.active = state.active := by
  rcases exists_of_bind_eq_ok h with ⟨bytes, _, h⟩
  cases h
  exact ⟨rfl, rfl⟩

variable [ScriptNumber Number]

/-- JSON data that can be written as it stands: it is no part of itself and hides nothing. -/
def IsPlainWithin (active : List Nat) (value : ProgramValue Number) : Prop :=
  (exists data, value.json? = some data) ∧ HidesNothing value ∧ value.IsAcyclic active

theorem active_of_assignValue {key : ScriptString} {value : ProgramValue Number}
    {depth amount : Nat} {scalar : BoundedJsonValue Number} {state final : CloneState Number}
    (htake : cloneValue value depth key state = assignValue key amount scalar state)
    (h : (cloneMachine Number).run [.value value depth key] state = .ok final) :
    final.active = state.active := by
  rw [StackMachine.run_singleton] at h
  rcases exists_of_bind_eq_ok h with ⟨taken, htaken, hrun⟩
  have hassigned : cloneValue value depth key state = .ok taken := htaken
  rw [htake] at hassigned
  rcases assignValue_ok hassigned with ⟨hnone, hactive⟩
  rw [hnone, StackMachine.run_nil] at hrun
  cases hrun
  exact hactive

/-- A copied container has been opened, its children have been copied, and it has been closed. -/
theorem copied_container {key : ScriptString} {value : ProgramValue Number} {depth : Nat}
    {state final : CloneState Number}
    (htake : cloneValue value depth key state = cloneContainer value depth key state)
    (h : (cloneMachine Number).run [.value value depth key] state = .ok final) :
    exists source read target entered left, value.identity? = some source ∧
      source ∉ state.active ∧
        readInlineChildren value state.members state.bytes = .ok (read, target) ∧
          entered.active = source :: state.active ∧
            (cloneMachine Number).run (read.children.map fun child =>
              .value child.snd (depth + 1) child.fst) entered = .ok left ∧
                final.active = left.active.erase source := by
  rw [StackMachine.run_singleton] at h
  rcases exists_of_bind_eq_ok h with ⟨⟨pushed, entered⟩, htaken, hrun⟩
  have hcontainer : cloneValue value depth key state = .ok (pushed, entered) := htaken
  rw [htake] at hcontainer
  rcases cloneContainer_ok hcontainer with ⟨source, read, target, hsource, hfresh, hread, hpushed,
    hentered⟩
  dsimp only at hpushed hentered hrun
  rw [hpushed, cloneFrames, StackMachine.run_append] at hrun
  rcases exists_of_bind_eq_ok hrun with ⟨left, hleft, hexit⟩
  rw [StackMachine.run_singleton] at hexit
  refine ⟨source, read, target, entered, left, hsource, hfresh, hread, hentered, hleft, ?_⟩
  have hclosed : (cloneMachine Number).run []
      { left with
        active := left.active.erase source
        targets := leaveTarget key left.targets } = .ok final := hexit
  rw [StackMachine.run_nil] at hclosed
  cases hclosed
  rfl

mutual

/-- What has been copied is plain JSON data, and all that was opened for it is closed again. -/
theorem plain_of_run : forall (value : ProgramValue Number) {depth : Nat} {key : ScriptString}
    {state final : CloneState Number},
      (cloneMachine Number).run [.value value depth key] state = .ok final ->
        IsPlainWithin state.active value ∧ final.active = state.active
  | .null, depth, key, state, final, h =>
      ⟨⟨⟨_, rfl⟩, trivial, trivial⟩, active_of_assignValue rfl h⟩
  | .bool value, depth, key, state, final, h =>
      ⟨⟨⟨_, rfl⟩, trivial, trivial⟩, active_of_assignValue rfl h⟩
  | .number (.finite value), depth, key, state, final, h =>
      ⟨⟨⟨_, rfl⟩, trivial, trivial⟩, active_of_assignValue rfl h⟩
  | .number .negativeZero, depth, key, state, final, h =>
      ⟨⟨⟨_, rfl⟩, trivial, trivial⟩, active_of_assignValue rfl h⟩
  | .number .notFinite, depth, key, state, final, h => by
      rw [StackMachine.run_singleton] at h
      cases h
  | .unsupported typeName, depth, key, state, final, h => by
      rw [StackMachine.run_singleton] at h
      cases h
  | .string text, depth, key, state, final, h => by
      refine ⟨⟨⟨_, rfl⟩, trivial, trivial⟩, ?_⟩
      rw [StackMachine.run_singleton] at h
      rcases exists_of_bind_eq_ok h with ⟨taken, htaken, hrun⟩
      have hvalue : (jsonStringBytes text >>= fun amount =>
          assignValue key amount (.string text) state) = .ok taken := htaken
      rcases exists_of_bind_eq_ok hvalue with ⟨amount, _, hassigned⟩
      rcases assignValue_ok hassigned with ⟨hnone, hactive⟩
      rw [hnone, StackMachine.run_nil] at hrun
      cases hrun
      exact hactive
  | .array identity hasSymbols hiddenNames shownNames items, depth, key, state, final, h => by
      rcases copied_container rfl h with ⟨source, read, target, entered, left, hsource, hfresh,
        hread, hentered, hleft, hfinal⟩
      cases hsource
      rcases readInlineChildren_array_ok hread with ⟨rfl, rfl, rfl, hdata, hchildren⟩
      rw [hchildren] at hleft
      rcases plainItems_of_run items hdata hleft with ⟨⟨data, hitems⟩, hhides, hacyclic, hactive⟩
      rw [hentered] at hacyclic hactive
      rw [hfinal, hactive, List.erase_cons_head]
      refine ⟨⟨⟨.array data, ?_⟩, hhides, hfresh, hacyclic⟩, rfl⟩
      rw [ProgramValue.json?, hitems, if_neg (by decide)]
      rfl
  | .object identity isPlain hasSymbols hiddenNames members, depth, key, state, final, h => by
      rcases copied_container rfl h with ⟨source, read, target, entered, left, hsource, hfresh,
        hread, hentered, hleft, hfinal⟩
      cases hsource
      rcases readInlineChildren_object_ok hread with ⟨rfl, rfl, rfl, hdata, hchildren⟩
      rw [hchildren] at hleft
      rcases plainMembers_of_run members hdata hleft with
        ⟨⟨data, hmembers⟩, hhides, hacyclic, hactive⟩
      rw [hentered] at hacyclic hactive
      rw [hfinal, hactive, List.erase_cons_head]
      refine ⟨⟨⟨.object data, ?_⟩, ⟨rfl, hhides⟩, hfresh, hacyclic⟩, rfl⟩
      rw [ProgramValue.json?, hmembers, if_neg (by decide)]
      rfl

theorem plainItems_of_run : forall (items : List (Bool × OwnProperty (ProgramValue Number)))
    {index depth : Nat} {state final : CloneState Number},
      (forall item, item ∈ items -> exists value, item = (true, .data value)) ->
        (cloneMachine Number).run ((itemChildren index items).map fun child =>
          .value child.snd depth child.fst) state = .ok final ->
            (exists data, jsonOfItems items = some data) ∧ ItemsHideNothing items ∧
              AreAcyclicItems state.active items ∧ final.active = state.active
  | [], index, depth, state, final, _, h => by
      have hnone : (cloneMachine Number).run [] state = .ok final := h
      rw [StackMachine.run_nil] at hnone
      cases hnone
      exact ⟨⟨[], rfl⟩, trivial, trivial, rfl⟩
  | (true, .data value) :: rest, index, depth, state, final, hdata, h => by
      rw [itemChildren_cons, List.map_cons, StackMachine.run_cons] at h
      rcases exists_of_bind_eq_ok h with ⟨next, hfirst, hrest⟩
      rcases plain_of_run value hfirst with ⟨⟨⟨first, hjson⟩, hhides, hacyclic⟩, hactive⟩
      rcases plainItems_of_run rest (fun item hitem => hdata item (List.mem_cons_of_mem _ hitem))
        hrest with ⟨⟨others, hothers⟩, hhidesRest, hacyclicRest, hfinal⟩
      rw [hactive] at hacyclicRest hfinal
      refine ⟨⟨first :: others, ?_⟩, ⟨hhides, hhidesRest⟩, ⟨hacyclic, hacyclicRest⟩, hfinal⟩
      rw [jsonOfItems, hjson, hothers]
      rfl
  | (true, .accessor _) :: _, _, _, _, _, hdata, _ => by
      rcases hdata _ List.mem_cons_self with ⟨value, hvalue⟩
      cases hvalue
  | (true, .missing) :: _, _, _, _, _, hdata, _ => by
      rcases hdata _ List.mem_cons_self with ⟨value, hvalue⟩
      cases hvalue
  | (false, _) :: _, _, _, _, _, hdata, _ => by
      rcases hdata _ List.mem_cons_self with ⟨value, hvalue⟩
      cases hvalue

theorem plainMembers_of_run :
    forall (members : List (ScriptString × OwnProperty (ProgramValue Number))) {depth : Nat}
      {state final : CloneState Number},
        (forall member, member ∈ members -> exists value, member.snd = .data value) ->
          (cloneMachine Number).run ((readMembers members).map fun child =>
            .value child.snd depth child.fst) state = .ok final ->
              (exists data, jsonOfMembers members = some data) ∧ MembersHideNothing members ∧
                AreAcyclicMembers state.active members ∧ final.active = state.active
  | [], depth, state, final, _, h => by
      have hnone : (cloneMachine Number).run [] state = .ok final := h
      rw [StackMachine.run_nil] at hnone
      cases hnone
      exact ⟨⟨[], rfl⟩, trivial, trivial, rfl⟩
  | (key, .data value) :: rest, depth, state, final, hdata, h => by
      rw [readMembers, List.map_cons, StackMachine.run_cons] at h
      rcases exists_of_bind_eq_ok h with ⟨next, hfirst, hrest⟩
      rcases plain_of_run value hfirst with ⟨⟨⟨first, hjson⟩, hhides, hacyclic⟩, hactive⟩
      rcases plainMembers_of_run rest
        (fun member hmember => hdata member (List.mem_cons_of_mem _ hmember)) hrest with
          ⟨⟨others, hothers⟩, hhidesRest, hacyclicRest, hfinal⟩
      rw [hactive] at hacyclicRest hfinal
      refine ⟨⟨(key, first) :: others, ?_⟩, ⟨hhides, hhidesRest⟩, ⟨hacyclic, hacyclicRest⟩,
        hfinal⟩
      rw [jsonOfMembers, hjson, hothers]
      rfl
  | (_, .accessor _) :: _, _, _, _, hdata, _ => by
      rcases hdata _ List.mem_cons_self with ⟨value, hvalue⟩
      cases hvalue
  | (_, .missing) :: _, _, _, _, hdata, _ => by
      rcases hdata _ List.mem_cons_self with ⟨value, hvalue⟩
      cases hvalue

end

/-!
## Copies
-/

/-- The value is plain JSON data: arrays and records with data properties only. -/
structure IsPlainJson (value : ProgramValue Number) (data : BoundedJsonValue Number) : Prop where
  holds : value.json? = some data
  hidesNothing : HidesNothing value
  acyclic : value.IsAcyclic []

structure IsWithinLimits (data : BoundedJsonValue Number) : Prop where
  bytes : textBytes data ≤ storedExecutionValueLimits.inlineBytes
  members : data.memberCount ≤ storedExecutionValueLimits.members
  depth : data.depth ≤ storedExecutionValueLimits.depth

theorem within_cloneTotals {data : BoundedJsonValue Number} :
    Within storedLimits (counting 0 0 + cloneTotals 0 data) ↔
      IsStorable data ∧ IsWithinLimits data := by
  have hbytes : (counting 0 0 + cloneTotals 0 data).of .bytes = storedBytes data :=
    Nat.zero_add _
  have hmembers : (counting 0 0 + cloneTotals 0 data).of .members = data.memberCount :=
    Nat.zero_add _
  have hdepth : (counting 0 0 + cloneTotals 0 data).of .depth = data.depth := by
    show max 0 (reached 0 data.depth) = data.depth
    rw [reached]
    split
    · next hzero => rw [hzero, Nat.max_self]
    · rw [Nat.zero_max, Nat.zero_add]
  constructor
  · intro h
    have hfits : storedBytes data ≤ storedInlineBytes := by
      apply Nat.le_of_not_lt
      intro hlarge
      exact h .bytes ⟨storedInlineBytes, rfl, hbytes.symm ▸ hlarge⟩
    have htext := (storedBytes_le_iff data).mp hfits
    refine ⟨htext.left, htext.right, ?_, ?_⟩
    · apply Nat.le_of_not_lt
      intro hmany
      exact h .members ⟨storedExecutionValueLimits.members, rfl, hmembers.symm ▸ hmany⟩
    · apply Nat.le_of_not_lt
      intro hdeep
      exact h .depth ⟨storedExecutionValueLimits.depth, rfl, hdepth.symm ▸ hdeep⟩
  · intro h kind hover
    rcases h with ⟨hstorable, hlimits⟩
    rcases hover with ⟨maximum, hlimit, hexceeds⟩
    cases kind with
    | bytes =>
        cases hlimit
        rw [hbytes] at hexceeds
        exact absurd ((storedBytes_le_iff data).mpr ⟨hstorable, hlimits.bytes⟩)
          (Nat.not_le_of_lt hexceeds)
    | members =>
        cases hlimit
        rw [hmembers] at hexceeds
        exact absurd hlimits.members (Nat.not_le_of_lt hexceeds)
    | depth =>
        cases hlimit
        rw [hdepth] at hexceeds
        exact absurd hlimits.depth (Nat.not_le_of_lt hexceeds)

theorem cloneInlineJson_plain {value : ProgramValue Number} {data : BoundedJsonValue Number}
    (h : IsPlainJson value data) (hordered : data.Ordered) {copy : BoundedJsonValue Number} :
    cloneInlineJson value = .ok copy ↔ copy = data ∧ IsStorable data ∧ IsWithinLimits data := by
  have hclones := clonesAs_value value h.holds hordered h.hidesNothing 0 h.acyclic rootKey
    { active := [], members := 0, bytes := 0, targets := [.members []] } (.members []) [] rfl rfl
    (within_counting.mpr ⟨Nat.zero_le _, Nat.zero_le _⟩)
  rw [cloneInlineJson]
  rcases hclones with ⟨hok, hwithin⟩ | ⟨failure, kind, herror, _, hexceeds⟩
  · have hroot : (cloneMachine Number).run [.value value 1 rootKey]
        { active := [], members := 0, bytes := 0, targets := [.members []] } = _ := hok
    have hassigned : rootValue [assignChild (.members []) rootKey data] = .ok data := by
      have hheld : assignChild (.members []) rootKey data = .members [(rootKey, data)] := rfl
      rw [hheld, rootValue.eq_def]
      simp only [List.lookup_cons, beq_self_eq_true]
    have hcopied := within_cloneTotals.mp hwithin
    rw [hroot]
    show rootValue [assignChild (.members []) rootKey data] = _ ↔ _
    rw [hassigned]
    constructor
    · intro hcopy
      cases hcopy
      exact ⟨rfl, hcopied⟩
    · intro hcopy
      rw [hcopy.left]
  · have hroot : (cloneMachine Number).run [.value value 1 rootKey]
        { active := [], members := 0, bytes := 0, targets := [.members []] } = _ := herror
    rw [hroot]
    constructor
    · intro hcopy
      cases hcopy
    · intro hcopy
      exact absurd hexceeds (within_cloneTotals.mpr hcopy.right kind)

/-- A value is copied exactly when it is plain JSON data that is storable and within the
limits. -/
theorem cloneInlineJson_iff {value : ProgramValue Number} (hordered : value.IsOwnOrdered)
    {data : BoundedJsonValue Number} :
    cloneInlineJson value = .ok data ↔
      IsPlainJson value data ∧ IsStorable data ∧ IsWithinLimits data := by
  constructor
  · intro h
    have hcopy := h
    rw [cloneInlineJson] at h
    rcases exists_of_bind_eq_ok h with ⟨state, hstate, _⟩
    rcases (plain_of_run value hstate).left with ⟨⟨found, hfound⟩, hhides, hacyclic⟩
    have hplain : IsPlainJson value found := ⟨hfound, hhides, hacyclic⟩
    rcases (cloneInlineJson_plain hplain (ordered_of_json? hfound hordered)).mp hcopy with
      ⟨rfl, hfits⟩
    exact ⟨hplain, hfits⟩
  · intro h
    have hdataOrdered := ordered_of_json? h.left.holds hordered
    exact (cloneInlineJson_plain h.left hdataOrdered).mpr ⟨rfl, h.right⟩

end

end StoredValues
end Pertexo
