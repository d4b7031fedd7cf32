import Pertexo.Spreadsheets.Cells
import Pertexo.Spreadsheets.SheetXml
import Pertexo.Spreadsheets.TextRoundTrip

/-!
# Decoding written cells

## Number texts

Every number literal is a double: the phases of the one are followed by those of
the other.
-/

namespace Pertexo
namespace Spreadsheets

open Library Values

def doublePhase : NumberPhase -> DoublePhase
  | .start => .start
  | .minus => .sign
  | .zero => .integer
  | .integer => .integer
  | .point => .fraction
  | .fraction => .fraction
  | .exponent => .exponent
  | .sign => .exponentSign
  | .power => .power

theorem doubleStep_of_numberStep {phase next : NumberPhase} {c : Char}
    (h : numberStep phase c = some next) :
    doubleStep (doublePhase phase) c = some (doublePhase next) := by
  have hzero : '0'.isDigit = true := by decide
  cases phase with
  | start =>
      simp only [numberStep] at h
      split at h
      · next hminus =>
        cases h
        simp [doubleStep, doublePhase, hminus]
      · split at h
        · next hdigit =>
          cases h
          rw [beq_iff_eq] at hdigit
          subst hdigit
          decide
        · split at h
          · next hminus _ hdigit =>
            cases h
            have hplus : (c == '+') = false := by
              rw [beq_eq_false_iff_ne]
              intro heq
              subst heq
              cases hdigit
            simp [doubleStep, doublePhase, hminus, hplus, hdigit]
          · cases h
  | minus =>
      simp only [numberStep] at h
      split at h
      · next hdigit =>
        cases h
        rw [beq_iff_eq] at hdigit
        subst hdigit
        decide
      · split at h
        · next hdigit =>
          cases h
          simp [doubleStep, doublePhase, hdigit]
        · cases h
  | zero =>
      simp only [numberStep] at h
      split at h
      · next hpoint =>
        cases h
        rw [beq_iff_eq] at hpoint
        subst hpoint
        decide
      · split at h
        · next hpoint hmark =>
          cases h
          have hdigit : c.isDigit = false := by
            simp only [isExponentMark, Bool.or_eq_true, beq_iff_eq] at hmark
            rcases hmark with rfl | rfl
            · rfl
            · rfl
          simp [doubleStep, doublePhase, hdigit, hpoint, hmark]
        · cases h
  | integer =>
      simp only [numberStep] at h
      simp only [doublePhase, doubleStep]
      split at h
      · next hdigit =>
        cases h
        rw [if_pos hdigit]
      · next hdigit =>
        rw [if_neg hdigit]
        split at h
        · next hpoint =>
          cases h
          rw [if_pos hpoint]
        · next hpoint =>
          rw [if_neg hpoint]
          split at h
          · next hmark =>
            cases h
            rw [if_pos hmark]
          · cases h
  | point =>
      simp only [numberStep] at h
      split at h
      · next hdigit =>
        cases h
        simp [doubleStep, doublePhase, hdigit]
      · cases h
  | fraction =>
      simp only [numberStep] at h
      split at h
      · next hdigit =>
        cases h
        simp [doubleStep, doublePhase, hdigit]
      · next hdigit =>
        split at h
        · next hmark =>
          cases h
          simp [doubleStep, doublePhase, hdigit, hmark]
        · cases h
  | exponent =>
      simp only [numberStep] at h
      split at h
      · next hsign =>
        cases h
        simp only [doubleStep, doublePhase]
        rw [if_pos hsign]
      · next hsign =>
        split at h
        · next hdigit =>
          cases h
          simp only [doubleStep, doublePhase]
          rw [if_neg hsign, if_pos hdigit]
        · cases h
  | sign =>
      simp only [numberStep] at h
      split at h
      · next hdigit =>
        cases h
        simp [doubleStep, doublePhase, hdigit]
      · cases h
  | power =>
      simp only [numberStep] at h
      split at h
      · next hdigit =>
        cases h
        simp [doubleStep, doublePhase, hdigit]
      · cases h

theorem foldlM_doubleStep {text : List Char} {phase last : NumberPhase}
    (h : text.foldlM numberStep phase = some last) :
    text.foldlM doubleStep (doublePhase phase) = some (doublePhase last) := by
  induction text generalizing phase with
  | nil =>
      cases h
      rfl
  | cons c rest ih =>
      rw [List.foldlM_cons, Option.bind_eq_bind, Option.bind_eq_some_iff] at h
      rcases h with ⟨next, hnext, hrest⟩
      rw [List.foldlM_cons, doubleStep_of_numberStep hnext]
      exact ih hrest

theorem isDouble_of_isNumberLiteral {text : List Char} (h : isNumberLiteral text = true) :
    isDouble text = true := by
  rw [isNumberLiteral] at h
  split at h
  · next phase hphase =>
    have hdouble := foldlM_doubleStep hphase
    rw [isDouble, show DoublePhase.start = doublePhase .start from rfl, hdouble]
    cases phase with
    | zero => rfl
    | integer => rfl
    | fraction => rfl
    | power => rfl
    | start => cases h
    | minus => cases h
    | point => cases h
    | exponent => cases h
    | sign => cases h
  · cases h

theorem lt_of_numberStep {phase next : NumberPhase} {c : Char}
    (h : numberStep phase c = some next) : c.toNat < 0x80 := by
  by_contra hlarge
  have hne : forall d : Char, d.toNat < 0x80 -> (c == d) = false := by
    intro d hd
    rw [beq_eq_false_iff_ne]
    intro heq
    exact hlarge (heq ▸ hd)
  have hdigit : c.isDigit = false := by
    rw [Bool.eq_false_iff]
    intro hdigit
    simp only [Char.isDigit, Bool.and_eq_true, decide_eq_true_eq, UInt32.le_iff_toNat_le] at hdigit
    have hhigh : c.toNat ≤ 57 := hdigit.right
    omega
  have hmark : isExponentMark c = false := by
    rw [isExponentMark, hne 'e' (by decide), hne 'E' (by decide)]
    rfl
  cases phase with
  | start =>
      simp [numberStep, hdigit, hne '-' (by decide), hne '0' (by decide)] at h
  | minus => simp [numberStep, hdigit, hne '0' (by decide)] at h
  | zero => simp [numberStep, hmark, hne '.' (by decide)] at h
  | integer => simp [numberStep, hdigit, hmark, hne '.' (by decide)] at h
  | point => simp [numberStep, hdigit] at h
  | fraction => simp [numberStep, hdigit, hmark] at h
  | exponent => simp [numberStep, hdigit, hne '+' (by decide), hne '-' (by decide)] at h
  | sign => simp [numberStep, hdigit] at h
  | power => simp [numberStep, hdigit] at h

theorem lt_of_foldlM_numberStep {text : List Char} {phase last : NumberPhase}
    (h : text.foldlM numberStep phase = some last) :
    forall c, c ∈ text -> c.toNat < 0x80 := by
  induction text generalizing phase with
  | nil =>
      intro c hc
      cases hc
  | cons first rest ih =>
      rw [List.foldlM_cons, Option.bind_eq_bind, Option.bind_eq_some_iff] at h
      rcases h with ⟨next, hnext, hrest⟩
      intro c hc
      cases hc with
      | head => exact lt_of_numberStep hnext
      | tail _ hmem => exact ih hrest c hmem

theorem unitChars_ascii {text : List Char} (h : forall c, c ∈ text -> c.toNat < 0x80) :
    unitChars (text.flatMap charUnits) = text ∧ (text.flatMap charUnits).length = text.length := by
  induction text with
  | nil => exact ⟨rfl, rfl⟩
  | cons c rest ih =>
      have hlt := h c List.mem_cons_self
      have hunits : charUnits c = [UInt16.ofNat c.toNat] := by
        rw [charUnits, if_pos (by omega)]
      have hchar : Char.ofNat (UInt16.ofNat c.toNat).toNat = c := by
        rw [UInt16.toNat_ofNat', Nat.mod_eq_of_lt (by omega), Char.ofNat_toNat]
      rcases ih fun other hother => h other (List.mem_cons_of_mem _ hother) with ⟨hrest, hlength⟩
      rw [List.flatMap_cons, hunits]
      constructor
      · rw [unitChars, List.map_append, List.map_singleton, hchar]
        exact congrArg (List.cons c) hrest
      · rw [List.length_append, List.length_singleton, List.length_cons, hlength, Nat.add_comm]

section

variable {Number : Type} [SheetNumber Number]

def numberText (value : Number) : ScriptString :=
  (ScriptNumber.text value).flatMap charUnits

theorem numberText_spec (value : Number) :
    isDouble (unitChars (numberText value)) = true ∧
      (ScriptNumber.read (unitChars (numberText value)) : NumberValue Number) = .finite value ∧
      numberText value ≠ [] ∧ (numberText value).length ≤ 32 := by
  have hliteral := ScriptNumber.isNumberLiteral_text value
  have hascii : forall c, c ∈ ScriptNumber.text value -> c.toNat < 0x80 := by
    rw [isNumberLiteral] at hliteral
    split at hliteral
    · next hphase => exact lt_of_foldlM_numberStep hphase
    · cases hliteral
  rcases unitChars_ascii hascii with ⟨hchars, hlength⟩
  refine ⟨?_, ?_, ?_, ?_⟩
  · rw [numberText, hchars]
    exact isDouble_of_isNumberLiteral hliteral
  · rw [numberText, hchars]
    exact ScriptNumber.read_text value
  · intro hempty
    rw [numberText] at hempty
    rw [hempty] at hchars
    rw [← hchars] at hliteral
    cases hliteral
  · rw [numberText, hlength]
    exact SheetNumber.length_text_le value

/-!
## Texts
-/

theorem readBack_ne_nil {text : ScriptString} (h : text ≠ []) : readBack text ≠ [] := by
  have hunit : forall unit rest, plainText (unit :: rest) ≠ [] := by
    intro unit rest hempty
    cases hrun : escapeRun (unit :: rest) with
    | none =>
        rw [plainText_cons hrun] at hempty
        cases hempty
    | some code =>
        rcases escapeRun_eq_some_iff.mp hrun with ⟨tail, htail⟩
        rw [htail, plainText_run] at hempty
        cases hempty
  cases text with
  | nil => exact absurd rfl h
  | cons unit rest =>
      rw [readBack]
      rcases written_cons_cases unit rest with ⟨_, _, hwritten⟩ | ⟨_, tail, hwritten⟩
      · rw [hwritten]
        exact hunit _ _
      · rw [hwritten]
        exact hunit _ _

def decodedText (text : ScriptString) : ScriptString :=
  plainText (excelText text)

theorem decodedText_eq_nil_iff {text : ScriptString} : decodedText text = [] ↔ text = [] := by
  constructor
  · intro h
    by_contra hne
    apply readBack_ne_nil _ h
    intro hempty
    apply hne
    rw [← List.length_eq_zero_iff, ← length_toWellFormed, hempty]
    rfl
  · intro h
    rw [h]
    decide

theorem length_decodedText_le (text : ScriptString) :
    (decodedText text).length ≤ text.length := by
  have hle := (length_readBack_le _ (toWellFormed text) le_rfl).left
  rw [length_toWellFormed] at hle
  exact hle

/-!
## The grid of values

What the position of a value holds: a boolean, a safe number, a number's text where
it is not a safe one, a text as decoded, and nothing for a missing value, a null or
an empty text.
-/

def numberCellOf (value : Number) : Cell Number :=
  if SheetNumber.isInteger value = true ∧ SheetNumber.isSafeInteger value = false then
    { value := .text (numberText value), text := numberText value }
  else { value := .number (.finite value), text := numberText value }

def textCellOf (Number : Type) (text : ScriptString) : Option (Cell Number) :=
  if text = [] then none
  else some { value := .text (decodedText text), text := decodedText text }

def gridCell : Option (BoundedJsonValue Number) -> Option (Cell Number)
  | none => none
  | some .null => none
  | some (.number value) => some (numberCellOf value)
  | some (.bool value) =>
      some
        { value := .boolean value
          text := scriptString (if value then "TRUE" else "FALSE") }
  | some (.string text) => textCellOf Number text
  | some (.array items) => textCellOf Number (jsonText (.array items))
  | some (.object members) => textCellOf Number (jsonText (.object members))

theorem textCell_decodedText {Number : Type} (text : ScriptString) :
    textCell (decodedText text) = textCellOf Number text := by
  rw [textCell, textCellOf]
  by_cases hempty : text = []
  · rw [if_pos hempty, if_pos (decodedText_eq_nil_iff.mpr hempty)]
  · rw [if_neg hempty, if_neg fun h => hempty (decodedText_eq_nil_iff.mp h)]

theorem plainNumber_finite (value : Number) :
    plainNumber (numberText value) (.finite value) = numberCellOf value := by
  rw [plainNumber, numberCellOf]
  cases SheetNumber.isInteger value with
  | false => rfl
  | true =>
      cases SheetNumber.isSafeInteger value with
      | false => rfl
      | true => rfl

theorem numberCell_numberText {context : CellContext}
    (hdates : forall kind, kind ∈ context.dateStyles -> kind = none) (value : Number)
    (style : Option Nat) : numberCell (numberText value) style context = numberCellOf value := by
  rcases numberText_spec value with ⟨hdouble, hread, _, _⟩
  have hkind : (style.bind fun index => context.dateStyles[index]?).join = none := by
    cases style with
    | none => rfl
    | some index =>
        rw [Option.bind_some]
        cases hat : context.dateStyles[index]? with
        | none => rfl
        | some kind =>
            rw [hdates kind (List.mem_of_getElem? hat)]
            rfl
  rw [numberCell, hdouble, hread, hkind]
  exact plainNumber_finite value

end

end Spreadsheets
end Pertexo
