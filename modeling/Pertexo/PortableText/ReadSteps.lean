import Pertexo.PortableText.PortableJson

/-!
# Steps of the reader

## Characters without structure
-/

namespace Pertexo
namespace PortableText

open Library
open Portability
open Values

def isNeutral (c : Char) : Bool :=
  !(c == '"' || c == '{' || c == '[' || c == '}' || c == ']' || c == ',')

theorem isNeutral_of_isJsonSpace {c : Char} (h : isJsonSpace c = true) : isNeutral c = true := by
  simp only [isJsonSpace, Bool.or_eq_true, beq_iff_eq] at h
  rcases h with ((rfl | rfl) | rfl) | rfl <;> decide

theorem isNeutral_of_isDigit {c : Char} (h : c.isDigit = true) : isNeutral c = true := by
  rw [isNeutral, Bool.not_eq_true', Bool.eq_false_iff]
  intro hstructural
  simp only [Bool.or_eq_true, beq_iff_eq] at hstructural
  rcases hstructural with ((((rfl | rfl) | rfl) | rfl) | rfl) | rfl <;> cases h

theorem isNeutral_of_isExponentMark {c : Char} (h : isExponentMark c = true) :
    isNeutral c = true := by
  simp only [isExponentMark, Bool.or_eq_true, beq_iff_eq] at h
  rcases h with rfl | rfl <;> decide

theorem isNeutral_of_numberStep {phase next : NumberPhase} {c : Char}
    (h : numberStep phase c = some next) : isNeutral c = true := by
  by_contra hneutral
  have hdigit : ¬ c.isDigit = true := fun hd => hneutral (isNeutral_of_isDigit hd)
  have hmark : ¬ isExponentMark c = true := fun hm => hneutral (isNeutral_of_isExponentMark hm)
  have hminus : ¬ (c == '-') = true := by
    intro hc
    rw [beq_iff_eq.mp hc] at hneutral
    exact hneutral rfl
  have hzero : ¬ (c == '0') = true := by
    intro hc
    rw [beq_iff_eq.mp hc] at hneutral
    exact hneutral rfl
  have hpoint : ¬ (c == '.') = true := by
    intro hc
    rw [beq_iff_eq.mp hc] at hneutral
    exact hneutral rfl
  have hplus : ¬ (c == '+' || c == '-') = true := by
    rw [Bool.or_eq_true]
    rintro (hc | hc)
    · rw [beq_iff_eq.mp hc] at hneutral
      exact hneutral rfl
    · exact hminus hc
  cases phase with
  | start => simp [numberStep, hminus, hzero, hdigit] at h
  | minus => simp [numberStep, hzero, hdigit] at h
  | zero => simp [numberStep, hpoint, hmark] at h
  | integer => simp [numberStep, hpoint, hmark, hdigit] at h
  | point => simp [numberStep, hdigit] at h
  | fraction => simp [numberStep, hmark, hdigit] at h
  | exponent =>
      rw [numberStep, if_neg hplus, if_neg hdigit] at h
      cases h
  | sign => simp [numberStep, hdigit] at h
  | power => simp [numberStep, hdigit] at h

section

variable {Number : Type}

/-!
## Transitions

What one unit outside of a string does to the reader.
-/

def expectsValue : ReadMode Number -> Bool
  | .value => true
  | .firstItem => true
  | _ => false

def expectsName : ReadMode Number -> Bool
  | .firstMember => true
  | .member => true
  | _ => false

def isScalar : GraphValue Number -> Bool
  | .array _ => false
  | .object _ => false
  | _ => true

/-- A value that is complete but for what comes after it. -/
inductive Holds [ScriptNumber Number] : ReadMode Number -> GraphValue Number -> Prop where
  | done (tree : GraphValue Number) : Holds (.done tree) tree
  | number (phase : NumberPhase) (text : List Char) (hcomplete : phase.isComplete = true) :
      Holds (.number phase text) (.number (ScriptNumber.read text))

inductive Transition [ScriptNumber Number] :
    ReadState Number -> Char -> ReadState Number -> Prop where
  | wait {mode : ReadMode Number} {stack : List (ReadFrame Number)} {c : Char}
      (hneutral : isNeutral c = true) (htext : forall isName textMode units,
        mode ≠ .text isName textMode units) :
      Transition { mode, stack } c { mode, stack }
  | literal {mode : ReadMode Number} {stack : List (ReadFrame Number)} {c : Char}
      {rest : List Char} {tree : GraphValue Number} (hmode : expectsValue mode = true)
      (hneutral : isNeutral c = true) (hrest : rest.all isNeutral = true)
      (hscalar : isScalar tree = true) :
      Transition { mode, stack } c { mode := .literal rest tree, stack }
  | literalMore {stack : List (ReadFrame Number)} {c : Char} {rest : List Char}
      {tree : GraphValue Number} :
      Transition { mode := .literal (c :: rest) tree, stack } c
        { mode := .literal rest tree, stack }
  | literalEnd {stack : List (ReadFrame Number)} {c : Char} {tree : GraphValue Number} :
      Transition { mode := .literal [c] tree, stack } c { mode := .done tree, stack }
  | number {mode : ReadMode Number} {stack : List (ReadFrame Number)} {c : Char}
      {phase : NumberPhase} {text : List Char} (hneutral : isNeutral c = true)
      (hmode : expectsValue mode = true ∨ exists phase text, mode = .number phase text) :
      Transition { mode, stack } c { mode := .number phase text, stack }
  | space {mode : ReadMode Number} {stack : List (ReadFrame Number)} {c : Char}
      {tree : GraphValue Number} (hneutral : isNeutral c = true) (hholds : Holds mode tree) :
      Transition { mode, stack } c { mode := .done tree, stack }
  | openArray {mode : ReadMode Number} {stack : List (ReadFrame Number)}
      (hmode : expectsValue mode = true) :
      Transition { mode, stack } '[' { mode := .firstItem, stack := .array [] :: stack }
  | openObject {mode : ReadMode Number} {stack : List (ReadFrame Number)}
      (hmode : expectsValue mode = true) :
      Transition { mode, stack } '{' { mode := .firstMember, stack := .object [] :: stack }
  | emptyArray {items : List (GraphValue Number)} {outer : List (ReadFrame Number)} :
      Transition { mode := .firstItem, stack := .array items :: outer } ']'
        { mode := .done (.array items), stack := outer }
  | emptyObject {members : GraphMembers Number} {outer : List (ReadFrame Number)} :
      Transition { mode := .firstMember, stack := .object members :: outer } '}'
        { mode := .done (.object members), stack := outer }
  | colon {name : ScriptString} {members : GraphMembers Number}
      {outer : List (ReadFrame Number)} :
      Transition { mode := .colon name, stack := .object members :: outer } ':'
        { mode := .value, stack := .member members name :: outer }
  | nextItem {mode : ReadMode Number} {items : List (GraphValue Number)}
      {outer : List (ReadFrame Number)} {tree : GraphValue Number} (hholds : Holds mode tree) :
      Transition { mode, stack := .array items :: outer } ','
        { mode := .value, stack := .array (items ++ [tree]) :: outer }
  | closeArray {mode : ReadMode Number} {items : List (GraphValue Number)}
      {outer : List (ReadFrame Number)} {tree : GraphValue Number} (hholds : Holds mode tree) :
      Transition { mode, stack := .array items :: outer } ']'
        { mode := .done (.array (items ++ [tree])), stack := outer }
  | nextMember {mode : ReadMode Number} {members : GraphMembers Number} {name : ScriptString}
      {outer : List (ReadFrame Number)} {tree : GraphValue Number} (hholds : Holds mode tree) :
      Transition { mode, stack := .member members name :: outer } ','
        { mode := .member, stack := .object (members ++ [(name, tree)]) :: outer }
  | closeObject {mode : ReadMode Number} {members : GraphMembers Number} {name : ScriptString}
      {outer : List (ReadFrame Number)} {tree : GraphValue Number} (hholds : Holds mode tree) :
      Transition { mode, stack := .member members name :: outer } '}'
        { mode := .done (.object (members ++ [(name, tree)])), stack := outer }
  | quoteValue {mode : ReadMode Number} {stack : List (ReadFrame Number)}
      (hmode : expectsValue mode = true) :
      Transition { mode, stack } '"' { mode := .text false .plain [], stack }
  | quoteName {mode : ReadMode Number} {stack : List (ReadFrame Number)}
      (hmode : expectsName mode = true) :
      Transition { mode, stack } '"' { mode := .text true .plain [], stack }

variable [ScriptNumber Number]

theorem transition_of_startTree {mode : ReadMode Number} {stack : List (ReadFrame Number)}
    {c : Char} {next : ReadState Number} (hmode : expectsValue mode = true)
    (h : startTree stack c = some next) : Transition { mode, stack } c next := by
  rw [startTree] at h
  split at h
  · next hc =>
    cases h
    rw [beq_iff_eq.mp hc]
    exact Transition.quoteValue hmode
  · split at h
    · next hc =>
      cases h
      rw [beq_iff_eq.mp hc]
      exact Transition.openArray hmode
    · split at h
      · next hc =>
        cases h
        rw [beq_iff_eq.mp hc]
        exact Transition.openObject hmode
      · split at h
        · next hc =>
          cases h
          rw [beq_iff_eq.mp hc]
          exact Transition.literal hmode (by decide) (by decide) rfl
        · split at h
          · next hc =>
            cases h
            rw [beq_iff_eq.mp hc]
            exact Transition.literal hmode (by decide) (by decide) rfl
          · split at h
            · next hc =>
              cases h
              rw [beq_iff_eq.mp hc]
              exact Transition.literal hmode (by decide) (by decide) rfl
            · rcases Option.map_eq_some_iff.mp h with ⟨phase, hphase, rfl⟩
              exact Transition.number (isNeutral_of_numberStep hphase) (Or.inl hmode)

theorem transition_of_afterTree {mode : ReadMode Number} {stack : List (ReadFrame Number)}
    {c : Char} {tree : GraphValue Number} {next : ReadState Number} (hholds : Holds mode tree)
    (h : afterTree tree stack c = some next) : Transition { mode, stack } c next := by
  unfold afterTree at h
  split at h
  · next hspace =>
    cases h
    exact Transition.space (isNeutral_of_isJsonSpace hspace) hholds
  · split at h
    · split at h
      · next hc =>
        cases h
        rw [beq_iff_eq.mp hc]
        exact Transition.nextItem hholds
      · split at h
        · next hc =>
          cases h
          rw [beq_iff_eq.mp hc]
          exact Transition.closeArray hholds
        · cases h
    · split at h
      · next hc =>
        cases h
        rw [beq_iff_eq.mp hc]
        exact Transition.nextMember hholds
      · split at h
        · next hc =>
          cases h
          rw [beq_iff_eq.mp hc]
          exact Transition.closeObject hholds
        · cases h
    · cases h

theorem transition_of_readUnit {state next : ReadState Number} {unit : UInt16}
    (htext : forall isName mode units, state.mode ≠ .text isName mode units)
    (h : readUnit state unit = some next) : Transition state (unitChar unit) next := by
  rcases state with ⟨mode, stack⟩
  unfold readUnit at h
  cases mode with
  | value =>
      dsimp only at h
      split at h
      · next hspace =>
        cases h
        exact Transition.wait (isNeutral_of_isJsonSpace hspace) htext
      · exact transition_of_startTree rfl h
  | firstItem =>
      dsimp only at h
      split at h
      · next hspace =>
        cases h
        exact Transition.wait (isNeutral_of_isJsonSpace hspace) htext
      · split at h
        · next hc =>
          split at h
          · cases h
            rw [beq_iff_eq.mp hc]
            exact Transition.emptyArray
          · cases h
        · exact transition_of_startTree rfl h
  | firstMember =>
      dsimp only at h
      split at h
      · next hspace =>
        cases h
        exact Transition.wait (isNeutral_of_isJsonSpace hspace) htext
      · split at h
        · next hc =>
          split at h
          · cases h
            rw [beq_iff_eq.mp hc]
            exact Transition.emptyObject
          · cases h
        · split at h
          · next hc =>
            cases h
            rw [beq_iff_eq.mp hc]
            exact Transition.quoteName rfl
          · cases h
  | member =>
      dsimp only at h
      split at h
      · next hspace =>
        cases h
        exact Transition.wait (isNeutral_of_isJsonSpace hspace) htext
      · split at h
        · next hc =>
          cases h
          rw [beq_iff_eq.mp hc]
          exact Transition.quoteName rfl
        · cases h
  | colon name =>
      dsimp only at h
      split at h
      · next hspace =>
        cases h
        exact Transition.wait (isNeutral_of_isJsonSpace hspace) htext
      · split at h
        · next hc =>
          split at h
          · cases h
            rw [beq_iff_eq.mp hc]
            exact Transition.colon
          · cases h
        · cases h
  | done tree => exact transition_of_afterTree (Holds.done tree) h
  | literal rest tree =>
      dsimp only at h
      split at h
      · cases h
      · split at h
        · next hc =>
          cases h
          rw [beq_iff_eq.mp hc]
          exact Transition.literalEnd
        · cases h
      · split at h
        · next hc =>
          cases h
          rw [beq_iff_eq.mp hc]
          exact Transition.literalMore
        · cases h
  | number phase text =>
      dsimp only at h
      split at h
      · next hstep =>
        cases h
        exact Transition.number (isNeutral_of_numberStep hstep) (Or.inr ⟨phase, text, rfl⟩)
      · split at h
        · next hcomplete => exact transition_of_afterTree (Holds.number phase text hcomplete) h
        · cases h
  | text isName textMode units => exact absurd rfl (htext isName textMode units)

/-!
## Strings

From inside a string the reader goes on to its closing quote.
-/

def closed (isName : Bool) (text : ScriptString) (stack : List (ReadFrame Number)) :
    ReadState Number where
  mode := if isName then .colon text else .done (.string text)
  stack := stack

def continued (isName : Bool) (units : ScriptString) (stack : List (ReadFrame Number)) :
    TextStep -> ReadState Number
  | .more mode units => { mode := .text isName mode units, stack }
  | .close => closed isName units stack

def closingFrom (mode : TextMode) (rest : ScriptString) : Option Nat :=
  match mode, rest with
  | .escape, [] => none
  | .escape, _ :: following => (closingQuote following).map fun length => length + 1
  | _, rest => closingQuote rest

theorem quote_ne_of_hexDigitValue {c : Char} {digit : Nat} (h : hexDigitValue c = some digit) :
    (c == '"') = false ∧ (c == '\\') = false := by
  have hnone : hexDigitValue '"' = none ∧ hexDigitValue '\\' = none := by
    decide
  constructor
  · rw [beq_eq_false_iff_ne]
    rintro rfl
    rw [hnone.left] at h
    cases h
  · rw [beq_eq_false_iff_ne]
    rintro rfl
    rw [hnone.right] at h
    cases h

theorem closingQuote_cons (unit : UInt16) (rest : ScriptString) :
    closingQuote (unit :: rest) =
      if unitChar unit == '"' then some 0
      else if unitChar unit == '\\' then
        match rest with
        | [] => none
        | _ :: following => (closingQuote following).map fun length => length + 2
      else (closingQuote rest).map fun length => length + 1 := by
  rw [closingQuote.eq_def]
  rfl

theorem closingFrom_more {mode next : TextMode} {units more : ScriptString} {unit : UInt16}
    {rest : ScriptString} (h : readText mode units unit = some (.more next more)) :
    closingFrom mode (unit :: rest) =
      (closingFrom next rest).map fun length => length + 1 := by
  cases mode with
  | plain =>
      rw [readText] at h
      split at h
      · cases h
      · next hquote =>
        have hopen : closingFrom .plain (unit :: rest) = closingQuote (unit :: rest) := rfl
        rw [hopen, closingQuote_cons, if_neg hquote]
        split at h
        · next hbackslash =>
          cases h
          rw [if_pos hbackslash]
          cases rest with
          | nil => rfl
          | cons skipped following =>
              show _ = ((closingQuote following).map fun length => length + 1).map _
              rw [Option.map_map]
              rfl
        · next hplain =>
          split at h
          · cases h
          · cases h
            rw [if_neg hplain]
            rfl
  | escape =>
      have hopen : closingFrom .escape (unit :: rest) =
          (closingQuote rest).map fun length => length + 1 := rfl
      rw [hopen]
      rw [readText] at h
      split at h
      · cases h
        rfl
      · rcases Option.map_eq_some_iff.mp h with ⟨escaped, _, hmore⟩
        cases hmore
        rfl
  | unicode digits =>
      rw [readText] at h
      rcases Option.map_eq_some_iff.mp h with ⟨digit, hdigit, hmore⟩
      rcases quote_ne_of_hexDigitValue hdigit with ⟨hquote, hbackslash⟩
      have hopen : closingFrom (.unicode digits) (unit :: rest) = closingQuote (unit :: rest) := rfl
      rw [hopen, closingQuote_cons]
      simp only [hquote, hbackslash, Bool.false_eq_true, if_false]
      split at hmore
      · cases hmore
        rfl
      · cases hmore
        rfl

theorem readUnits_cons (state : ReadState Number) (unit : UInt16) (rest : ScriptString) :
    readUnits state (unit :: rest) = (readUnit state unit).bind fun next => readUnits next rest :=
  List.foldlM_cons

/-- A string that ends is read to its closing quote in the same way wherever it stands. -/
theorem read_text {rest : ScriptString} {isName : Bool} {mode : TextMode} {units : ScriptString}
    {stack : List (ReadFrame Number)} {final : ReadState Number}
    (h : readUnits { mode := .text isName mode units, stack } rest = some final)
    (hend : forall isName mode units, final.mode ≠ .text isName mode units) :
    exists length text, closingFrom mode rest = some length ∧
      (forall (named : Bool) (outer : List (ReadFrame Number)),
        readUnits { mode := .text named mode units, stack := outer } (rest.take (length + 1)) =
          some (closed named text outer)) ∧
      readUnits (closed isName text stack) (rest.drop (length + 1)) = some final := by
  induction rest generalizing mode units with
  | nil =>
      cases h
      exact absurd rfl (hend isName mode units)
  | cons unit rest ih =>
      rw [readUnits_cons] at h
      rcases Option.bind_eq_some_iff.mp h with ⟨next, hnext, hrest⟩
      have hstep : forall (named : Bool) (outer : List (ReadFrame Number)),
          readUnit { mode := .text named mode units, stack := outer } unit =
            (readText mode units unit).map (continued named units outer) := fun _ _ => rfl
      rw [hstep] at hnext
      rcases Option.map_eq_some_iff.mp hnext with ⟨step, hread, rfl⟩
      cases step with
      | close =>
          refine ⟨0, units, ?_, ?_, hrest⟩
          · cases mode with
            | plain =>
                rw [readText] at hread
                split at hread
                · next hquote =>
                  show closingQuote (unit :: rest) = some 0
                  rw [closingQuote_cons]
                  exact if_pos hquote
                · split at hread
                  · cases hread
                  · split at hread
                    · cases hread
                    · cases hread
            | escape =>
                rw [readText] at hread
                split at hread
                · cases hread
                · rcases Option.map_eq_some_iff.mp hread with ⟨_, _, hclose⟩
                  cases hclose
            | unicode digits =>
                rw [readText] at hread
                rcases Option.map_eq_some_iff.mp hread with ⟨_, _, hclose⟩
                split at hclose
                · cases hclose
                · cases hclose
          · intro named outer
            show readUnits _ [unit] = _
            rw [readUnits_cons, hstep, hread]
            rfl
      | more nextMode more =>
          rcases ih hrest with ⟨length, text, hlength, hreads, hfinal⟩
          refine ⟨length + 1, text, ?_, ?_, hfinal⟩
          · rw [closingFrom_more hread, hlength]
            rfl
          · intro named outer
            show readUnits _ (unit :: rest.take (length + 1)) = _
            rw [readUnits_cons, hstep, hread]
            exact hreads named outer

end

end PortableText
end Pertexo
