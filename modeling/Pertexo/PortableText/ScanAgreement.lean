import Pertexo.PortableText.ReadSteps

/-!
# The scan beside the reader

## Trees in the making

A state is good when what has been read so far can still become a tree of distinct names
and admitted nesting.
-/

namespace Pertexo
namespace PortableText

open Library
open Portability
open Values

section

variable {Number : Type}

def FitsAt (height : Nat) (tree : GraphValue Number) : Prop :=
  DistinctNames tree ∧ nesting tree + height ≤ portabilityInputDepth

def FrameGood (height : Nat) : ReadFrame Number -> Prop
  | .array items => forall item, item ∈ items -> FitsAt height item
  | .object members =>
      (members.map Prod.fst).Nodup ∧ forall member, member ∈ members -> FitsAt height member.snd
  | .member members name =>
      (members.map Prod.fst ++ [name]).Nodup ∧
        forall member, member ∈ members -> FitsAt height member.snd

def StackGood : List (ReadFrame Number) -> Prop
  | [] => True
  | frame :: outer =>
      FrameGood (outer.length + 1) frame ∧ outer.length + 1 ≤ portabilityInputDepth ∧
        StackGood outer

def ModeGood (mode : ReadMode Number) (stack : List (ReadFrame Number)) : Prop :=
  match mode, stack with
  | .done tree, stack => FitsAt stack.length tree
  | .colon name, .object members :: _ => name ∉ members.map Prod.fst
  | _, _ => True

def Good (state : ReadState Number) : Prop :=
  StackGood state.stack ∧ ModeGood state.mode state.stack

theorem stackGood_length {stack : List (ReadFrame Number)} (h : StackGood stack) :
    stack.length ≤ portabilityInputDepth := by
  cases stack with
  | nil => exact Nat.zero_le _
  | cons frame outer => exact h.right.left

theorem fitsAt_scalar {tree : GraphValue Number} {height : Nat} (hscalar : isScalar tree = true)
    (hheight : height ≤ portabilityInputDepth) : FitsAt height tree := by
  cases tree with
  | array items => cases hscalar
  | object members => cases hscalar
  | null => exact ⟨trivial, by rw [nesting]; omega⟩
  | bool value => exact ⟨trivial, by rw [nesting]; omega⟩
  | number value => exact ⟨trivial, by rw [nesting]; omega⟩
  | string text => exact ⟨trivial, by rw [nesting]; omega⟩

theorem fitsAt_array {items : List (GraphValue Number)} {height : Nat} :
    FitsAt height (.array items) ↔
      height + 1 ≤ portabilityInputDepth ∧
        forall item, item ∈ items -> FitsAt (height + 1) item := by
  rw [FitsAt, DistinctNames, distinctInItems_iff, nesting]
  have hbound : nestingOfItems items + 1 + height ≤ portabilityInputDepth ↔
      height + 1 ≤ portabilityInputDepth ∧
        nestingOfItems items ≤ portabilityInputDepth - (height + 1) := by
    omega
  rw [hbound, nestingOfItems_le]
  constructor
  · rintro ⟨hdistinct, hheight, hnesting⟩
    refine ⟨hheight, fun item hitem => ⟨hdistinct item hitem, ?_⟩⟩
    have := hnesting item hitem
    omega
  · rintro ⟨hheight, hall⟩
    refine ⟨fun item hitem => (hall item hitem).left, hheight, fun item hitem => ?_⟩
    have := (hall item hitem).right
    omega

theorem fitsAt_object {members : GraphMembers Number} {height : Nat} :
    FitsAt height (.object members) ↔
      height + 1 ≤ portabilityInputDepth ∧ (members.map Prod.fst).Nodup ∧
        forall member, member ∈ members -> FitsAt (height + 1) member.snd := by
  rw [FitsAt, DistinctNames, distinctInMembers_iff, nesting]
  have hbound : nestingOfMembers members + 1 + height ≤ portabilityInputDepth ↔
      height + 1 ≤ portabilityInputDepth ∧
        nestingOfMembers members ≤ portabilityInputDepth - (height + 1) := by
    omega
  rw [hbound, nestingOfMembers_le]
  constructor
  · rintro ⟨⟨hnodup, hdistinct⟩, hheight, hnesting⟩
    refine ⟨hheight, hnodup, fun member hmember => ⟨hdistinct member hmember, ?_⟩⟩
    have := hnesting member hmember
    omega
  · rintro ⟨hheight, hnodup, hall⟩
    refine ⟨⟨hnodup, fun member hmember => (hall member hmember).left⟩, hheight,
      fun member hmember => ?_⟩
    have := (hall member hmember).right
    omega

theorem stackGood_array {items : List (GraphValue Number)} {outer : List (ReadFrame Number)} :
    StackGood (.array items :: outer) ↔ FitsAt outer.length (.array items) ∧ StackGood outer := by
  rw [fitsAt_array, StackGood, FrameGood]
  constructor
  · rintro ⟨hall, hheight, houter⟩
    exact ⟨⟨hheight, hall⟩, houter⟩
  · rintro ⟨⟨hheight, hall⟩, houter⟩
    exact ⟨hall, hheight, houter⟩

theorem stackGood_object {members : GraphMembers Number} {outer : List (ReadFrame Number)} :
    StackGood (.object members :: outer) ↔
      FitsAt outer.length (.object members) ∧ StackGood outer := by
  rw [fitsAt_object, StackGood, FrameGood]
  constructor
  · rintro ⟨⟨hnodup, hall⟩, hheight, houter⟩
    exact ⟨⟨hheight, hnodup, hall⟩, houter⟩
  · rintro ⟨⟨hheight, hnodup, hall⟩, houter⟩
    exact ⟨⟨hnodup, hall⟩, hheight, houter⟩

theorem stackGood_member {members : GraphMembers Number} {name : ScriptString}
    {outer : List (ReadFrame Number)} :
    StackGood (.member members name :: outer) ↔
      name ∉ members.map Prod.fst ∧ StackGood (.object members :: outer) := by
  rw [StackGood, StackGood, FrameGood, FrameGood, List.nodup_append]
  constructor
  · rintro ⟨⟨⟨hnodup, _, hapart⟩, hall⟩, hheight, houter⟩
    refine ⟨fun hmember => ?_, ⟨hnodup, hall⟩, hheight, houter⟩
    exact hapart name hmember name (List.mem_singleton_self name) rfl
  · rintro ⟨hnew, ⟨hnodup, hall⟩, hheight, houter⟩
    refine ⟨⟨⟨hnodup, List.nodup_singleton name, ?_⟩, hall⟩, hheight, houter⟩
    intro old hold other hother
    rw [List.mem_singleton] at hother
    rw [hother]
    rintro rfl
    exact hnew hold

theorem fitsAt_append_item {items : List (GraphValue Number)} {tree : GraphValue Number}
    {height : Nat} :
    FitsAt height (.array (items ++ [tree])) ↔
      FitsAt height (.array items) ∧ FitsAt (height + 1) tree := by
  rw [fitsAt_array, fitsAt_array]
  constructor
  · rintro ⟨hheight, hall⟩
    exact ⟨⟨hheight, fun item hitem => hall item (List.mem_append_left _ hitem)⟩,
      hall tree (List.mem_append_right _ (List.mem_singleton_self tree))⟩
  · rintro ⟨⟨hheight, hall⟩, htree⟩
    refine ⟨hheight, fun item hitem => ?_⟩
    rcases List.mem_append.mp hitem with hold | hnew
    · exact hall item hold
    · rw [List.mem_singleton.mp hnew]
      exact htree

theorem fitsAt_append_member {members : GraphMembers Number} {name : ScriptString}
    {tree : GraphValue Number} {height : Nat} :
    FitsAt height (.object (members ++ [(name, tree)])) ↔
      name ∉ members.map Prod.fst ∧ FitsAt height (.object members) ∧
        FitsAt (height + 1) tree := by
  rw [fitsAt_object, fitsAt_object, List.map_append, List.nodup_append]
  constructor
  · rintro ⟨hheight, ⟨hnodup, _, hapart⟩, hall⟩
    refine ⟨fun hmember => ?_, ⟨hheight, hnodup,
      fun member hmember => hall member (List.mem_append_left _ hmember)⟩,
      hall (name, tree) (List.mem_append_right _ (List.mem_singleton_self _))⟩
    exact hapart name hmember name (List.mem_singleton_self name) rfl
  · rintro ⟨hnew, ⟨hheight, hnodup, hall⟩, htree⟩
    refine ⟨hheight, ⟨hnodup, List.nodup_singleton _, ?_⟩, fun member hmember => ?_⟩
    · intro old hold other hother
      rw [List.map_singleton, List.mem_singleton] at hother
      rw [hother]
      rintro rfl
      exact hnew hold
    · rcases List.mem_append.mp hmember with hold | hadded
      · exact hall member hold
      · rw [List.mem_singleton.mp hadded]
        exact htree

variable [ScriptNumber Number]

theorem fitsAt_of_holds {mode : ReadMode Number} {tree : GraphValue Number}
    {stack : List (ReadFrame Number)} (hholds : Holds mode tree) (hstack : StackGood stack)
    (hmode : ModeGood mode stack) : FitsAt stack.length tree := by
  cases hholds with
  | done tree => exact hmode
  | number phase text hcomplete => exact fitsAt_scalar rfl (stackGood_length hstack)

theorem modeGood_of_holds {mode : ReadMode Number} {tree : GraphValue Number}
    {stack : List (ReadFrame Number)} (hholds : Holds mode tree)
    (hfits : FitsAt stack.length tree) : ModeGood mode stack := by
  cases hholds with
  | done tree => exact hfits
  | number phase text hcomplete => trivial

omit [ScriptNumber Number] in
theorem modeGood_of_expectsValue {mode : ReadMode Number} {stack : List (ReadFrame Number)}
    (hmode : expectsValue mode = true) : ModeGood mode stack := by
  cases mode with
  | value => trivial
  | firstItem => trivial
  | _ => cases hmode

omit [ScriptNumber Number] in
theorem modeGood_of_expectsName {mode : ReadMode Number} {stack : List (ReadFrame Number)}
    (hmode : expectsName mode = true) : ModeGood mode stack := by
  cases mode with
  | firstMember => trivial
  | member => trivial
  | _ => cases hmode

theorem good_of_transition {state next : ReadState Number} {c : Char}
    (h : Transition state c next) (hgood : Good next) : Good state := by
  rcases hgood with ⟨hstack, hmode⟩
  cases h with
  | wait hneutral htext => exact ⟨hstack, hmode⟩
  | literal hvalue hneutral hrest hscalar => exact ⟨hstack, modeGood_of_expectsValue hvalue⟩
  | literalMore => exact ⟨hstack, trivial⟩
  | literalEnd => exact ⟨hstack, trivial⟩
  | number hneutral hvalue =>
      refine ⟨hstack, ?_⟩
      rcases hvalue with hvalue | ⟨phase, text, rfl⟩
      · exact modeGood_of_expectsValue hvalue
      · trivial
  | space hneutral hholds => exact ⟨hstack, modeGood_of_holds hholds hmode⟩
  | openArray hvalue =>
      exact ⟨(stackGood_array.mp hstack).right, modeGood_of_expectsValue hvalue⟩
  | openObject hvalue =>
      exact ⟨(stackGood_object.mp hstack).right, modeGood_of_expectsValue hvalue⟩
  | emptyArray => exact ⟨stackGood_array.mpr ⟨hmode, hstack⟩, trivial⟩
  | emptyObject => exact ⟨stackGood_object.mpr ⟨hmode, hstack⟩, trivial⟩
  | colon =>
      rcases stackGood_member.mp hstack with ⟨hnew, hobject⟩
      exact ⟨hobject, hnew⟩
  | nextItem hholds =>
      rcases stackGood_array.mp hstack with ⟨hitems, houter⟩
      rcases fitsAt_append_item.mp hitems with ⟨hold, htree⟩
      exact ⟨stackGood_array.mpr ⟨hold, houter⟩, modeGood_of_holds hholds htree⟩
  | closeArray hholds =>
      rcases fitsAt_append_item.mp hmode with ⟨hold, htree⟩
      exact ⟨stackGood_array.mpr ⟨hold, hstack⟩, modeGood_of_holds hholds htree⟩
  | nextMember hholds =>
      rcases stackGood_object.mp hstack with ⟨hmembers, houter⟩
      rcases fitsAt_append_member.mp hmembers with ⟨hnew, hold, htree⟩
      exact ⟨stackGood_member.mpr ⟨hnew, stackGood_object.mpr ⟨hold, houter⟩⟩,
        modeGood_of_holds hholds htree⟩
  | closeObject hholds =>
      rcases fitsAt_append_member.mp hmode with ⟨hnew, hold, htree⟩
      exact ⟨stackGood_member.mpr ⟨hnew, stackGood_object.mpr ⟨hold, hstack⟩⟩,
        modeGood_of_holds hholds htree⟩
  | quoteValue hvalue => exact ⟨hstack, modeGood_of_expectsValue hvalue⟩
  | quoteName hname => exact ⟨hstack, modeGood_of_expectsName hname⟩

theorem good_of_readUnit {state next : ReadState Number} {unit : UInt16}
    (h : readUnit state unit = some next) (hgood : Good next) : Good state := by
  by_cases htext : exists isName mode units, state.mode = .text isName mode units
  · rcases state with ⟨mode, stack⟩
    rcases htext with ⟨isName, textMode, units, hmode⟩
    dsimp only at hmode
    subst hmode
    rcases Option.map_eq_some_iff.mp h with ⟨step, _, rfl⟩
    refine ⟨?_, trivial⟩
    cases step with
    | more => exact hgood.left
    | close => exact hgood.left
  · refine good_of_transition (transition_of_readUnit ?_ h) hgood
    intro isName mode units hmode
    exact htext ⟨isName, mode, units, hmode⟩

theorem good_of_readUnits {text : ScriptString} {state final : ReadState Number}
    (h : readUnits state text = some final) (hgood : Good final) : Good state := by
  induction text generalizing state with
  | nil =>
      cases h
      exact hgood
  | cons unit rest ih =>
      rw [readUnits_cons] at h
      rcases Option.bind_eq_some_iff.mp h with ⟨next, hnext, hrest⟩
      exact good_of_readUnit hnext (ih hrest)

/-!
## Frames of the scan

A frame of the scan holds the names of the members that the reader has, the one whose
value is being read included.
-/

inductive FrameMatches : ReadFrame Number -> JsonFrame -> Prop where
  | array {items : List (GraphValue Number)} {keys : List ScriptString} {keyExpected : Bool} :
      FrameMatches (.array items) { object := false, keys, keyExpected }
  | member {members : GraphMembers Number} {name : ScriptString} {keys : List ScriptString}
      (hkeys : forall key, key ∈ keys ↔ key ∈ members.map Prod.fst ++ [name]) :
      FrameMatches (.member members name) { object := true, keys, keyExpected := false }

def carriesValue : ReadMode Number -> Bool
  | .value => true
  | .firstItem => true
  | .done _ => true
  | .number _ _ => true
  | .literal rest tree => rest.all isNeutral && isScalar tree
  | _ => false

inductive Matches : ReadState Number -> List JsonFrame -> Prop where
  | value {mode : ReadMode Number} {stack : List (ReadFrame Number)} {scan : List JsonFrame}
      (hmode : carriesValue mode = true) (hstack : List.Forall₂ FrameMatches stack scan) :
      Matches { mode, stack } scan
  | name {mode : ReadMode Number} {members : GraphMembers Number}
      {outer : List (ReadFrame Number)} {scan : List JsonFrame} {keys : List ScriptString}
      (hmode : expectsName mode = true)
      (hkeys : forall key, key ∈ keys ↔ key ∈ members.map Prod.fst)
      (houter : List.Forall₂ FrameMatches outer scan) :
      Matches { mode, stack := .object members :: outer }
        ({ object := true, keys, keyExpected := true } :: scan)
  | colon {name : ScriptString} {members : GraphMembers Number}
      {outer : List (ReadFrame Number)} {scan : List JsonFrame} {keys : List ScriptString}
      (hkeys : forall key, key ∈ keys ↔ key ∈ members.map Prod.fst ++ [name])
      (houter : List.Forall₂ FrameMatches outer scan) :
      Matches { mode := .colon name, stack := .object members :: outer }
        ({ object := true, keys, keyExpected := false } :: scan)

theorem inspectUnit_neutral {c : Char} (h : isNeutral c = true) (following : ScriptString)
    (scan : List JsonFrame) : inspectUnit Number c following scan = .ok (0, scan) := by
  simp only [isNeutral, Bool.not_eq_true', Bool.or_eq_false_iff] at h
  rcases h with ⟨⟨⟨⟨⟨hquote, hbrace⟩, hbracket⟩, hendBrace⟩, hendBracket⟩, hcomma⟩
  simp [inspectUnit, hquote, hbrace, hbracket, hendBrace, hendBracket, hcomma]

theorem inspectUnit_open (c : Char) (hc : c = '{' ∨ c = '[') (following : ScriptString)
    (scan : List JsonFrame) :
    inspectUnit Number c following scan =
      if scan.length + 1 > portabilityInputDepth then .error .limit
      else .ok (0, { object := c == '{', keys := [], keyExpected := true } :: scan) := by
  rcases hc with rfl | rfl
  · rfl
  · rfl

theorem inspectUnit_close (c : Char) (hc : c = '}' ∨ c = ']') (following : ScriptString)
    (current : JsonFrame) (outer : List JsonFrame) (hobject : current.object = (c == '}')) :
    inspectUnit Number c following (current :: outer) = .ok (0, outer) := by
  rcases hc with rfl | rfl
  · show (if current.object != true then _ else _) = _
    rw [hobject]
    rfl
  · show (if current.object != false then _ else _) = _
    rw [hobject]
    rfl

theorem inspectUnit_comma (following : ScriptString) (current : JsonFrame)
    (outer : List JsonFrame) :
    inspectUnit Number ',' following (current :: outer) = .ok (0,
      (if current.object then { current with keyExpected := true } else current) :: outer) :=
  rfl

omit [ScriptNumber Number] in
theorem carriesValue_of_expectsValue {mode : ReadMode Number} (h : expectsValue mode = true) :
    carriesValue mode = true := by
  cases mode with
  | value => rfl
  | firstItem => rfl
  | _ => cases h

theorem carriesValue_of_holds {mode : ReadMode Number} {tree : GraphValue Number}
    (h : Holds mode tree) : carriesValue mode = true := by
  cases h with
  | done tree => rfl
  | number phase text hcomplete => rfl

omit [ScriptNumber Number] in
theorem frames_of_matches {mode : ReadMode Number} {stack : List (ReadFrame Number)}
    {scan : List JsonFrame} (hmode : carriesValue mode = true) (h : Matches { mode, stack } scan) :
    List.Forall₂ FrameMatches stack scan := by
  cases h with
  | value _ hstack => exact hstack
  | name hname _ _ =>
      cases mode with
      | firstMember => cases hmode
      | member => cases hmode
      | _ => cases hname
  | colon _ _ => cases hmode

/-- Outside of strings the scan keeps up with the reader, or the reader's state is bad. -/
theorem scan_transition {state next : ReadState Number} {c : Char} {scan : List JsonFrame}
    (h : Transition state c next) (htext : forall isName mode units,
      next.mode ≠ .text isName mode units) (hmatches : Matches state scan)
    (hgood : Good state) :
    (exists following, Matches next following ∧ Good next ∧
      forall rest, inspectUnit Number c rest scan = .ok (0, following)) ∨
    ¬ Good next ∧ forall rest, inspectUnit Number c rest scan = .error .limit := by
  rcases hgood with ⟨hstack, hmode⟩
  cases h with
  | wait hneutral _ =>
      exact Or.inl ⟨scan, hmatches, ⟨hstack, hmode⟩, fun rest =>
        inspectUnit_neutral hneutral rest scan⟩
  | literal hvalue hneutral hrest hscalar =>
      have hframes := frames_of_matches (carriesValue_of_expectsValue hvalue) hmatches
      refine Or.inl ⟨scan, Matches.value ?_ hframes, ⟨hstack, trivial⟩, fun rest =>
        inspectUnit_neutral hneutral rest scan⟩
      rw [carriesValue, hrest, hscalar]
      rfl
  | literalMore =>
      cases hmatches with
      | value hcarries hframes =>
          rw [carriesValue, List.all_cons, Bool.and_eq_true, Bool.and_eq_true] at hcarries
          rcases hcarries with ⟨⟨hneutral, hrest⟩, hscalar⟩
          refine Or.inl ⟨scan, Matches.value ?_ hframes, ⟨hstack, trivial⟩, fun rest =>
            inspectUnit_neutral hneutral rest scan⟩
          rw [carriesValue, hrest, hscalar]
          rfl
      | name hname _ _ => cases hname
  | literalEnd =>
      cases hmatches with
      | value hcarries hframes =>
          rw [carriesValue, List.all_cons, Bool.and_eq_true, Bool.and_eq_true] at hcarries
          rcases hcarries with ⟨⟨hneutral, _⟩, hscalar⟩
          exact Or.inl ⟨scan, Matches.value rfl hframes,
            ⟨hstack, fitsAt_scalar hscalar (stackGood_length hstack)⟩, fun rest =>
              inspectUnit_neutral hneutral rest scan⟩
      | name hname _ _ => cases hname
  | @number mode _ _ _ _ hneutral hvalue =>
      have hcarries : carriesValue mode = true := by
        rcases hvalue with hvalue | ⟨phase, text, rfl⟩
        · exact carriesValue_of_expectsValue hvalue
        · rfl
      exact Or.inl ⟨scan, Matches.value rfl (frames_of_matches hcarries hmatches),
        ⟨hstack, trivial⟩, fun rest => inspectUnit_neutral hneutral rest scan⟩
  | space hneutral hholds =>
      have hframes := frames_of_matches (carriesValue_of_holds hholds) hmatches
      exact Or.inl ⟨scan, Matches.value rfl hframes,
        ⟨hstack, fitsAt_of_holds hholds hstack hmode⟩, fun rest =>
          inspectUnit_neutral hneutral rest scan⟩
  | openArray hvalue =>
      have hframes := frames_of_matches (carriesValue_of_expectsValue hvalue) hmatches
      by_cases hheight : scan.length + 1 > portabilityInputDepth
      · refine Or.inr ⟨?_, fun rest => ?_⟩
        · rintro ⟨hnext, _⟩
          have hlength := stackGood_length hnext
          rw [List.length_cons, hframes.length_eq] at hlength
          omega
        · rw [inspectUnit_open _ (Or.inr rfl), if_pos hheight]
      · refine Or.inl ⟨{ object := false, keys := [], keyExpected := true } :: scan,
          Matches.value rfl (List.Forall₂.cons FrameMatches.array hframes),
          ⟨stackGood_array.mpr ⟨fitsAt_array.mpr ⟨?_, ?_⟩, hstack⟩, trivial⟩, fun rest => ?_⟩
        · rw [hframes.length_eq]
          omega
        · intro item hitem
          cases hitem
        · rw [inspectUnit_open _ (Or.inr rfl), if_neg hheight]
          rfl
  | openObject hvalue =>
      have hframes := frames_of_matches (carriesValue_of_expectsValue hvalue) hmatches
      by_cases hheight : scan.length + 1 > portabilityInputDepth
      · refine Or.inr ⟨?_, fun rest => ?_⟩
        · rintro ⟨hnext, _⟩
          have hlength := stackGood_length hnext
          rw [List.length_cons, hframes.length_eq] at hlength
          omega
        · rw [inspectUnit_open _ (Or.inl rfl), if_pos hheight]
      · refine Or.inl ⟨{ object := true, keys := [], keyExpected := true } :: scan,
          Matches.name rfl (fun key => Iff.rfl) hframes,
          ⟨stackGood_object.mpr ⟨fitsAt_object.mpr ⟨?_, List.nodup_nil, ?_⟩, hstack⟩, trivial⟩,
          fun rest => ?_⟩
        · rw [hframes.length_eq]
          omega
        · intro member hmember
          cases hmember
        · rw [inspectUnit_open _ (Or.inl rfl), if_neg hheight]
          rfl
  | emptyArray =>
      have hframes := frames_of_matches rfl hmatches
      rcases stackGood_array.mp hstack with ⟨hitems, houter⟩
      cases hframes with
      | cons hfirst hrest =>
          cases hfirst with
          | array =>
              exact Or.inl ⟨_, Matches.value rfl hrest, ⟨houter, hitems⟩, fun rest =>
                inspectUnit_close _ (Or.inr rfl) rest _ _ rfl⟩
  | emptyObject =>
      rcases stackGood_object.mp hstack with ⟨hmembers, houter⟩
      cases hmatches with
      | value hcarries _ => cases hcarries
      | name _ hkeys hframes =>
          exact Or.inl ⟨_, Matches.value rfl hframes, ⟨houter, hmembers⟩, fun rest =>
            inspectUnit_close _ (Or.inl rfl) rest _ _ rfl⟩
  | colon =>
      cases hmatches with
      | value hcarries _ => cases hcarries
      | name hname _ _ => cases hname
      | colon hkeys hframes =>
          exact Or.inl ⟨_, Matches.value rfl
            (List.Forall₂.cons (FrameMatches.member hkeys) hframes),
            ⟨stackGood_member.mpr ⟨hmode, hstack⟩, trivial⟩, fun rest =>
              inspectUnit_neutral (by decide) rest _⟩
  | nextItem hholds =>
      have hframes := frames_of_matches (carriesValue_of_holds hholds) hmatches
      have htree := fitsAt_of_holds hholds hstack hmode
      rcases stackGood_array.mp hstack with ⟨hitems, houter⟩
      cases hframes with
      | cons hfirst hrest =>
          cases hfirst with
          | array =>
              exact Or.inl ⟨_, Matches.value rfl (List.Forall₂.cons FrameMatches.array hrest),
                ⟨stackGood_array.mpr ⟨fitsAt_append_item.mpr ⟨hitems, htree⟩, houter⟩, trivial⟩,
                fun rest => inspectUnit_comma rest _ _⟩
  | closeArray hholds =>
      have hframes := frames_of_matches (carriesValue_of_holds hholds) hmatches
      have htree := fitsAt_of_holds hholds hstack hmode
      rcases stackGood_array.mp hstack with ⟨hitems, houter⟩
      cases hframes with
      | cons hfirst hrest =>
          cases hfirst with
          | array =>
              exact Or.inl ⟨_, Matches.value rfl hrest,
                ⟨houter, fitsAt_append_item.mpr ⟨hitems, htree⟩⟩, fun rest =>
                  inspectUnit_close _ (Or.inr rfl) rest _ _ rfl⟩
  | nextMember hholds =>
      have hframes := frames_of_matches (carriesValue_of_holds hholds) hmatches
      have htree := fitsAt_of_holds hholds hstack hmode
      rcases stackGood_member.mp hstack with ⟨hnew, hobject⟩
      rcases stackGood_object.mp hobject with ⟨hmembers, houter⟩
      cases hframes with
      | cons hfirst hrest =>
          cases hfirst with
          | member hkeys =>
              refine Or.inl ⟨_, Matches.name rfl ?_ hrest,
                ⟨stackGood_object.mpr ⟨fitsAt_append_member.mpr ⟨hnew, hmembers, htree⟩, houter⟩,
                  trivial⟩, fun rest => inspectUnit_comma rest _ _⟩
              intro key
              rw [hkeys, List.map_append, List.map_singleton]
  | closeObject hholds =>
      have hframes := frames_of_matches (carriesValue_of_holds hholds) hmatches
      have htree := fitsAt_of_holds hholds hstack hmode
      rcases stackGood_member.mp hstack with ⟨hnew, hobject⟩
      rcases stackGood_object.mp hobject with ⟨hmembers, houter⟩
      cases hframes with
      | cons hfirst hrest =>
          cases hfirst with
          | member hkeys =>
              exact Or.inl ⟨_, Matches.value rfl hrest,
                ⟨houter, fitsAt_append_member.mpr ⟨hnew, hmembers, htree⟩⟩, fun rest =>
                  inspectUnit_close _ (Or.inl rfl) rest _ _ rfl⟩
  | quoteValue hvalue => exact absurd rfl (htext false .plain [])
  | quoteName hname => exact absurd rfl (htext true .plain [])

/-!
## Strings of the scan
-/

theorem inspectUnits_pass (text : ScriptString) (passed : Nat) (scan : List JsonFrame) :
    inspectUnits Number text passed scan = inspectUnits Number (text.drop passed) 0 scan := by
  induction text generalizing passed with
  | nil =>
      rw [List.drop_nil]
      rfl
  | cons unit rest ih =>
      cases passed with
      | zero => rfl
      | succ passed => exact ih passed

theorem inspectUnits_cons (unit : UInt16) (rest : ScriptString) (scan : List JsonFrame) :
    inspectUnits Number (unit :: rest) 0 scan =
      (inspectUnit Number (unitChar unit) rest scan).bind fun inspected =>
        inspectUnits Number (rest.drop inspected.fst) 0 inspected.snd := by
  rw [inspectUnits]
  show Except.bind _ _ = _
  congr 1
  funext inspected
  exact inspectUnits_pass rest inspected.fst inspected.snd

theorem parseText_of_read {body text : ScriptString}
    (h : readUnits { mode := .text false .plain [], stack := [] } body =
      some (closed false text ([] : List (ReadFrame Number)))) :
    parseText (UInt16.ofNat '"'.toNat :: body) = some (.string text : GraphValue Number) := by
  have hfirst : readUnit ({ mode := .value, stack := [] } : ReadState Number)
      (UInt16.ofNat '"'.toNat) = some { mode := .text false .plain [], stack := [] } := rfl
  rw [parseText, readJson, readUnits_cons, hfirst, Option.bind_some, h]
  rfl

theorem inspectUnit_string {following : ScriptString} {length : Nat} {scan : List JsonFrame}
    (hlength : closingQuote following = some length)
    (hvalue : forall current outer, scan = current :: outer ->
      (current.object && current.keyExpected) = false) :
    inspectUnit Number '"' following scan = .ok (length + 1, scan) := by
  show inspectJsonString Number following scan = _
  rw [inspectJsonString, hlength]
  cases scan with
  | nil => rfl
  | cons current outer =>
      dsimp only
      rw [hvalue current outer rfl]
      rfl

theorem inspectUnit_name {following text : ScriptString} {length : Nat}
    {keys : List ScriptString} {outer : List JsonFrame}
    (hlength : closingQuote following = some length)
    (hparse : parseText (UInt16.ofNat '"'.toNat :: following.take (length + 1)) =
      some (.string text : GraphValue Number)) :
    inspectUnit Number '"' following ({ object := true, keys, keyExpected := true } :: outer) =
      if text ∈ keys then .error .invalid
      else .ok (length + 1,
        { object := true, keys := text :: keys, keyExpected := false } :: outer) := by
  have hstring : inspectUnit Number '"' following
      ({ object := true, keys, keyExpected := true } :: outer) =
        inspectJsonString Number following
          ({ object := true, keys, keyExpected := true } :: outer) := rfl
  rw [hstring, inspectJsonString, hlength]
  dsimp only
  rw [if_pos (Bool.and_self true), hparse]
  dsimp only
  simp only [List.contains_iff_mem]

theorem scan_string {mode : ReadMode Number} {stack : List (ReadFrame Number)}
    {scan : List JsonFrame} {isName : Bool} {following text : ScriptString} {length : Nat}
    (h : Transition { mode, stack } '"' { mode := .text isName .plain [], stack })
    (hmatches : Matches { mode, stack } scan) (hgood : Good { mode, stack })
    (hlength : closingQuote following = some length)
    (hparse : parseText (UInt16.ofNat '"'.toNat :: following.take (length + 1)) =
      some (.string text : GraphValue Number)) :
    (exists inspected, Matches (closed isName text stack) inspected ∧
      Good (closed isName text stack) ∧
      inspectUnit Number '"' following scan = .ok (length + 1, inspected)) ∨
    ¬ Good (closed isName text stack) ∧
      inspectUnit Number '"' following scan = .error .invalid := by
  rcases hgood with ⟨hstack, hmode⟩
  cases h with
  | wait hneutral htext => exact absurd rfl (htext isName .plain [])
  | quoteValue hvalue =>
      have hframes := frames_of_matches (carriesValue_of_expectsValue hvalue) hmatches
      refine Or.inl ⟨scan, Matches.value rfl hframes,
        ⟨hstack, fitsAt_scalar rfl (stackGood_length hstack)⟩,
        inspectUnit_string hlength ?_⟩
      rintro current outer rfl
      cases hframes with
      | cons hfirst hrest =>
          cases hfirst with
          | array => rfl
          | member hkeys => rfl
  | quoteName hname =>
      cases hmatches with
      | value hcarries _ =>
          cases mode with
          | firstMember => cases hcarries
          | member => cases hcarries
          | _ => cases hname
      | colon _ _ => cases hname
      | @name _ members outer frames keys _ hkeys hframes =>
          rw [inspectUnit_name hlength hparse]
          by_cases hthere : text ∈ keys
          · refine Or.inr ⟨?_, if_pos hthere⟩
            rintro ⟨_, hnew⟩
            exact hnew ((hkeys text).mp hthere)
          · refine Or.inl ⟨_, Matches.colon ?_ hframes, ⟨hstack, ?_⟩, if_neg hthere⟩
            · intro key
              rw [List.mem_cons, hkeys, List.mem_append, List.mem_singleton, or_comm]
            · exact fun hold => hthere ((hkeys text).mpr hold)

theorem result_cases {state : ReadState Number} {tree : GraphValue Number}
    (h : readResult state = some tree) : state.stack = [] ∧ Holds state.mode tree := by
  rcases state with ⟨mode, stack⟩
  unfold readResult at h
  split at h
  · next hstack hmode =>
    cases h
    dsimp only at hstack hmode
    rw [hstack, hmode]
    exact ⟨rfl, Holds.done tree⟩
  · next phase text hstack hmode =>
    split at h
    · next hcomplete =>
      cases h
      dsimp only at hstack hmode
      rw [hstack, hmode]
      exact ⟨rfl, Holds.number phase text hcomplete⟩
    · cases h
  · cases h

theorem good_iff_of_result {state : ReadState Number} {tree : GraphValue Number}
    (h : readResult state = some tree) : Good state ↔ FitsAt 0 tree := by
  rcases state with ⟨mode, stack⟩
  rcases result_cases h with ⟨hstack, hholds⟩
  dsimp only at hstack hholds
  subst hstack
  constructor
  · rintro ⟨hgood, hmode⟩
    exact fitsAt_of_holds hholds hgood hmode
  · intro hfits
    exact ⟨trivial, modeGood_of_holds hholds hfits⟩

theorem quote_of_transition {state next : ReadState Number} {c : Char} {isName : Bool}
    {textMode : TextMode} {units : ScriptString} (h : Transition state c next)
    (hnext : next.mode = .text isName textMode units) :
    c = '"' ∧ next = { mode := .text isName .plain [], stack := state.stack } := by
  cases h with
  | wait hneutral htext => exact absurd hnext (htext isName textMode units)
  | quoteValue hvalue =>
      cases hnext
      exact ⟨rfl, rfl⟩
  | quoteName hname =>
      cases hnext
      exact ⟨rfl, rfl⟩
  | _ => cases hnext

omit [ScriptNumber Number] in
theorem closed_not_text (named : Bool) (text : ScriptString) (stack : List (ReadFrame Number)) :
    forall isName mode units, (closed named text stack).mode ≠ .text isName mode units := by
  intro isName mode units h
  cases named <;> cases h

/-- On a text that the reader accepts the scan succeeds exactly when the tree is good. -/
theorem inspectUnits_cases {text : ScriptString} {state final : ReadState Number}
    {scan : List JsonFrame} {tree : GraphValue Number}
    (htext : forall isName mode units, state.mode ≠ .text isName mode units)
    (hmatches : Matches state scan) (hgood : Good state)
    (hread : readUnits state text = some final) (hresult : readResult final = some tree) :
    (inspectUnits Number text 0 scan = .ok [] ∧ FitsAt 0 tree) ∨
      (exists failure, inspectUnits Number text 0 scan = .error failure) ∧ ¬ FitsAt 0 tree := by
  induction hlength : text.length using Nat.strong_induction_on generalizing text state scan with
  | _ size ih =>
  cases text with
  | nil =>
      cases hread
      rcases result_cases hresult with ⟨hstack, hholds⟩
      rcases final with ⟨mode, stack⟩
      dsimp only at hstack hholds
      subst hstack
      cases frames_of_matches (carriesValue_of_holds hholds) hmatches
      exact Or.inl ⟨rfl, (good_iff_of_result hresult).mp hgood⟩
  | cons unit rest =>
      rw [readUnits_cons] at hread
      rcases Option.bind_eq_some_iff.mp hread with ⟨next, hnext, hrest⟩
      have htransition := transition_of_readUnit htext hnext
      have hbad : ¬ Good next -> ¬ FitsAt 0 tree := fun hnot hfits =>
        hnot (good_of_readUnits hrest ((good_iff_of_result hresult).mpr hfits))
      rw [inspectUnits_cons]
      by_cases hstring : exists isName mode units, next.mode = .text isName mode units
      · rcases hstring with ⟨isName, mode, units, hmode⟩
        rcases quote_of_transition htransition hmode with ⟨hquote, rfl⟩
        rw [hquote] at htransition ⊢
        have hend : forall isName mode units, final.mode ≠ .text isName mode units := by
          intro isName mode units htextMode
          have hholds := (result_cases hresult).right
          rw [htextMode] at hholds
          cases hholds
        rcases read_text hrest hend with ⟨length, text, hclosing, hreads, hfinal⟩
        rcases scan_string htransition hmatches hgood hclosing
          (parseText_of_read (hreads false [])) with
          ⟨inspected, hmatched, hstill, hscan⟩ | ⟨hnot, hscan⟩
        · rw [hscan]
          exact ih (rest.drop (length + 1)).length
            (by rw [List.length_drop, ← hlength, List.length_cons]; omega)
            (closed_not_text isName text state.stack) hmatched hstill hfinal rfl
        · rw [hscan]
          exact Or.inr ⟨⟨.invalid, rfl⟩, fun hfits =>
            hnot (good_of_readUnits hfinal ((good_iff_of_result hresult).mpr hfits))⟩
      · have hplain : forall isName mode units, next.mode ≠ .text isName mode units :=
          fun isName mode units hmode => hstring ⟨isName, mode, units, hmode⟩
        rcases scan_transition htransition hplain hmatches hgood with
          ⟨following, hmatched, hstill, hscan⟩ | ⟨hnot, hscan⟩
        · rw [hscan]
          exact ih rest.length (by rw [← hlength, List.length_cons]; omega) hplain hmatched hstill
            hrest rfl
        · rw [hscan]
          exact Or.inr ⟨⟨.limit, rfl⟩, hbad hnot⟩

theorem inspectJsonText_iff {text : ScriptString} {tree : GraphValue Number}
    (h : readJson text = some tree) :
    inspectJsonText Number text = .ok () ↔
      DistinctNames tree ∧ nesting tree ≤ portabilityInputDepth := by
  rcases Option.bind_eq_some_iff.mp h with ⟨final, hread, hresult⟩
  have hcases := @inspectUnits_cases Number _ text { mode := .value, stack := [] } final [] tree
    (fun _ _ _ hmode => nomatch hmode) (Matches.value rfl List.Forall₂.nil) ⟨trivial, trivial⟩
    hread hresult
  rw [inspectJsonText]
  rcases hcases with ⟨hscan, hfits⟩ | ⟨⟨failure, hscan⟩, hnot⟩
  · rw [hscan]
    exact ⟨fun _ => hfits, fun _ => rfl⟩
  · rw [hscan]
    constructor
    · intro hok
      cases hok
    · intro hfits
      exact absurd hfits hnot

end

end PortableText
end Pertexo
