import Pertexo.JsonBoundaries.WalkTotals
import Pertexo.PortableText.ReadSteps

/-!
# Reading written texts

The text that the serializer writes for a tree is read back as the tree, whatever the order of
its members.
-/

namespace Pertexo
namespace JsonBoundaries

open Portability
open PortableText
open Values

/-!
## Trees as the reader gives them
-/

section

variable {Number : Type}

mutual

def parsedTree : BoundedJsonValue Number -> GraphValue Number
  | .null => .null
  | .bool value => .bool value
  | .number value => .number (.finite value)
  | .string text => .string text
  | .array items => .array (parsedItems items)
  | .object members => .object (parsedMembers members)

def parsedItems : List (BoundedJsonValue Number) -> List (GraphValue Number)
  | [] => []
  | item :: rest => parsedTree item :: parsedItems rest

def parsedMembers : List (ScriptString × BoundedJsonValue Number) -> GraphMembers Number
  | [] => []
  | (name, value) :: rest => (name, parsedTree value) :: parsedMembers rest

end

mutual

theorem parsedTree_injective : forall left right : BoundedJsonValue Number,
    parsedTree left = parsedTree right -> left = right
  | .null, right, h => by
      cases right <;> first | rfl | cases h
  | .bool value, right, h => by
      cases right <;> cases h
      rfl
  | .number value, right, h => by
      cases right <;> cases h
      rfl
  | .string text, right, h => by
      cases right <;> cases h
      rfl
  | .array items, right, h => by
      cases right with
      | array others =>
          have hitems := BoundedJsonValue.array.inj h
          rw [parsedItems_injective items others hitems]
      | null => cases h
      | bool other => cases h
      | number other => cases h
      | string other => cases h
      | object others => cases h
  | .object members, right, h => by
      cases right with
      | object others =>
          have hmembers := BoundedJsonValue.object.inj h
          rw [parsedMembers_injective members others hmembers]
      | null => cases h
      | bool other => cases h
      | number other => cases h
      | string other => cases h
      | array others => cases h

theorem parsedItems_injective : forall left right : List (BoundedJsonValue Number),
    parsedItems left = parsedItems right -> left = right
  | [], [], _ => rfl
  | [], _ :: _, h => nomatch h
  | _ :: _, [], h => nomatch h
  | item :: rest, other :: others, h => by
      have hparts := List.cons.inj h
      rw [parsedTree_injective item other hparts.left,
        parsedItems_injective rest others hparts.right]

theorem parsedMembers_injective :
    forall left right : List (ScriptString × BoundedJsonValue Number),
      parsedMembers left = parsedMembers right -> left = right
  | [], [], _ => rfl
  | [], _ :: _, h => nomatch h
  | _ :: _, [], h => nomatch h
  | (name, value) :: rest, (other, found) :: others, h => by
      have hparts := List.cons.inj h
      have hmember := Prod.mk.inj hparts.left
      rw [hmember.left, parsedTree_injective value found hmember.right,
        parsedMembers_injective rest others hparts.right]

end

end

/-!
## Reading characters
-/

def textUnits (text : List Char) : ScriptString :=
  text.flatMap charUnits

theorem textUnits_append (left right : List Char) :
    textUnits (left ++ right) = textUnits left ++ textUnits right :=
  List.flatMap_append

theorem unitChar_ofNat {c : Char} (h : c.toNat < 0x10000) :
    unitChar (UInt16.ofNat c.toNat) = c := by
  rw [unitChar, UInt16.toNat_ofNat_of_lt' h, Char.ofNat_toNat]

theorem charUnits_of_numberStep {phase next : NumberPhase} {c : Char}
    (h : numberStep phase c = some next) :
    charUnits c = [UInt16.ofNat c.toNat] ∧ unitChar (UInt16.ofNat c.toNat) = c := by
  have hsize := utf8Size_of_numberStep h
  rw [Char.utf8Size_eq_one_iff] at hsize
  have hlt : c.toNat < 0x10000 := by
    have hvalue : c.toNat ≤ 127 := UInt32.le_iff_toNat_le.mp hsize
    omega
  exact ⟨charUnits_of_lt hlt, unitChar_ofNat hlt⟩

section

variable {Number : Type} [ScriptNumber Number]

theorem readUnits_append (state : ReadState Number) (left right : ScriptString) :
    readUnits state (left ++ right) =
      (readUnits state left).bind fun next => readUnits next right := by
  rw [readUnits, List.foldlM_append]
  rfl

theorem readUnits_text_append (state : ReadState Number) (left right : List Char) :
    readUnits state (textUnits (left ++ right)) =
      (readUnits state (textUnits left)).bind fun next => readUnits next (textUnits right) := by
  rw [textUnits_append, readUnits_append]

theorem readUnits_char (state : ReadState Number) {c : Char} (h : c.toNat < 0x10000)
    (rest : List Char) :
    readUnits state (textUnits (c :: rest)) =
      (readUnit state (UInt16.ofNat c.toNat)).bind fun next => readUnits next (textUnits rest) := by
  have hunits : textUnits (c :: rest) = UInt16.ofNat c.toNat :: textUnits rest := by
    rw [textUnits, List.flatMap_cons, charUnits_of_lt h]
    rfl
  rw [hunits, readUnits_cons]

/-!
## Strings
-/

/-- The reader within a string. -/
def within (isName : Bool) (mode : TextMode) (units : ScriptString)
    (stack : List (ReadFrame Number)) : ReadState Number :=
  { mode := .text isName mode units, stack }

theorem toNat_digitChar {n : Nat} (h : n < 0x10) : (Nat.digitChar n).toNat < 0x10000 := by
  have hall : forall digit : Fin 0x10, (Nat.digitChar digit).toNat < 0x10000 := by
    decide
  exact hall ⟨n, h⟩

theorem read_hexDigit {n : Nat} (h : n < 0x10) (isName : Bool) (digits : List Nat)
    (units : ScriptString) (stack : List (ReadFrame Number)) (rest : List Char) :
    readUnits (within isName (.unicode digits) units stack) (textUnits (Nat.digitChar n :: rest)) =
      readUnits
        (match digits with
        | [first, second, third] =>
            within isName .plain
              (units ++ [UInt16.ofNat (((first * 16 + second) * 16 + third) * 16 + n)]) stack
        | _ => within isName (.unicode (digits ++ [n])) units stack) (textUnits rest) := by
  rw [readUnits_char _ (toNat_digitChar h)]
  have hdigit := hexDigitValue_digitChar h
  rw [← unitChar_ofNat (toNat_digitChar h)] at hdigit
  have hstep : readUnit (within isName (.unicode digits) units stack)
      (UInt16.ofNat (Nat.digitChar n).toNat) =
        some (match digits with
        | [first, second, third] =>
            within isName .plain
              (units ++ [UInt16.ofNat (((first * 16 + second) * 16 + third) * 16 + n)]) stack
        | _ => within isName (.unicode (digits ++ [n])) units stack) := by
    show (readText (.unicode digits) units _).map _ = _
    rw [readText, hdigit]
    -- the fourth digit ends the escape
    rcases digits with _ | ⟨first, _ | ⟨second, _ | ⟨third, _ | ⟨fourth, more⟩⟩⟩⟩
    · rfl
    · rfl
    · rfl
    · rfl
    · rfl
  rw [hstep]
  rfl

theorem read_escapeStart (isName : Bool) (units : ScriptString) (stack : List (ReadFrame Number))
    (rest : List Char) :
    readUnits (within isName .plain units stack) (textUnits ('\\' :: 'u' :: rest)) =
      readUnits (within isName (.unicode []) units stack) (textUnits rest) := by
  have hslash : readUnit (within isName .plain units stack) (UInt16.ofNat ('\\' : Char).toNat) =
      some (within isName .escape units stack) := rfl
  have hstart : readUnit (within isName .escape units stack) (UInt16.ofNat ('u' : Char).toNat) =
      some (within isName (.unicode []) units stack) := rfl
  rw [readUnits_char _ (by decide), hslash, Option.bind_some, readUnits_char _ (by decide), hstart,
    Option.bind_some]

theorem read_unicodeEscape {n : Nat} (h : n < 0x10000) (isName : Bool) (units : ScriptString)
    (stack : List (ReadFrame Number)) :
    readUnits (within isName .plain units stack) (textUnits (unicodeEscape n)) =
      some (within isName .plain (units ++ [UInt16.ofNat n]) stack) := by
  have hvalue : ((n / 0x1000 * 16 + n / 0x100 % 0x10) * 16 + n / 0x10 % 0x10) * 16 + n % 0x10 =
      n := by
    omega
  rw [unicodeEscape, read_escapeStart, read_hexDigit (by omega)]
  dsimp only [List.nil_append]
  rw [read_hexDigit (by omega)]
  dsimp only [List.cons_append, List.nil_append]
  rw [read_hexDigit (by omega)]
  dsimp only [List.cons_append, List.nil_append]
  rw [read_hexDigit (by omega)]
  dsimp only
  rw [hvalue]
  rfl

theorem read_plainUnit {unit : UInt16} (hquote : (unitChar unit == '"') = false)
    (hslash : (unitChar unit == '\\') = false) (hplain : ¬ unit.toNat ≤ 0x1f) (isName : Bool)
    (units : ScriptString) (stack : List (ReadFrame Number)) :
    readUnit (within isName .plain units stack) unit =
      some (within isName .plain (units ++ [unit]) stack) := by
  show (readText .plain units unit).map _ = _
  rw [readText, hquote, hslash]
  simp only [Bool.false_eq_true, if_false]
  rw [if_neg hplain]
  rfl

theorem unitChar_surrogate {n : Nat} (hlow : 0xD800 ≤ n) (hhigh : n ≤ 0xDFFF) :
    unitChar (UInt16.ofNat n) = Char.ofNat 0 ∧ ¬ (UInt16.ofNat n).toNat ≤ 0x1f := by
  have hvalue : (UInt16.ofNat n).toNat = n :=
    UInt16.toNat_ofNat_of_lt' (Nat.lt_of_le_of_lt hhigh (by decide))
  constructor
  · rw [unitChar, hvalue, Char.ofNat, dif_neg]
    · rfl
    · rw [Nat.isValidChar]
      omega
  · omega

theorem read_jsonCharText (c : Char) (isName : Bool) (units : ScriptString)
    (stack : List (ReadFrame Number)) :
    readUnits (within isName .plain units stack) (textUnits (jsonCharText c)) =
      some (within isName .plain (units ++ charUnits c) stack) := by
  rw [jsonCharText]
  split
  · next hc =>
    rw [beq_iff_eq.mp hc]
    rfl
  split
  · next hc =>
    rw [beq_iff_eq.mp hc]
    rfl
  split
  · next hc =>
    rw [beq_iff_eq.mp hc]
    rfl
  split
  · next hc =>
    rw [beq_iff_eq.mp hc]
    rfl
  split
  · next hc =>
    rw [beq_iff_eq.mp hc]
    rfl
  split
  · next hc =>
    rw [beq_iff_eq.mp hc]
    rfl
  split
  · next hc =>
    rw [beq_iff_eq.mp hc]
    rfl
  split
  · next hcontrol =>
    rw [jsonControlEscape_eq hcontrol, charUnits_of_lt (by omega)]
    exact read_unicodeEscape (by omega) isName units stack
  · next hquote hslash _ _ _ _ _ hplain =>
    simp only [Bool.not_eq_true] at hquote hslash
    by_cases hbasic : c.toNat < 0x10000
    · have hunit := unitChar_ofNat hbasic
      rw [readUnits_char _ hbasic, charUnits_of_lt hbasic, read_plainUnit]
      · rfl
      · rw [hunit]
        exact hquote
      · rw [hunit]
        exact hslash
      · rw [UInt16.toNat_ofNat_of_lt' hbasic]
        exact hplain
    · -- a character beyond the basic plane is two units, neither of which means anything
      have hrange : c.toNat < 0x110000 := by
        have hvalid := c.valid
        rcases hvalid with hsmall | hlarge
        · exact Nat.lt_trans hsmall (by decide)
        · exact hlarge.right
      have hhigh := @unitChar_surrogate (0xD800 + (c.toNat - 0x10000) / 0x400) (by omega) (by omega)
      have hlow := @unitChar_surrogate (0xDC00 + (c.toNat - 0x10000) % 0x400) (by omega) (by omega)
      have hunits : textUnits [c] =
          [UInt16.ofNat (0xD800 + (c.toNat - 0x10000) / 0x400),
            UInt16.ofNat (0xDC00 + (c.toNat - 0x10000) % 0x400)] := by
        rw [textUnits, List.flatMap_cons, charUnits, if_neg hbasic]
        rfl
      rw [hunits, charUnits, if_neg hbasic, readUnits_cons,
        read_plainUnit (by rw [hhigh.left]; rfl) (by rw [hhigh.left]; rfl) hhigh.right,
        Option.bind_some, readUnits_cons,
        read_plainUnit (by rw [hlow.left]; rfl) (by rw [hlow.left]; rfl) hlow.right,
        List.append_assoc]
      rfl

theorem read_codePoints (points : List CodePoint) (isName : Bool) (units : ScriptString)
    (stack : List (ReadFrame Number)) :
    readUnits (within isName .plain units stack) (textUnits (points.flatMap codePointText)) =
      some (within isName .plain (units ++ points.flatMap CodePoint.units) stack) := by
  induction points generalizing units with
  | nil =>
      rw [@List.flatMap_nil _ _ CodePoint.units, List.append_nil]
      rfl
  | cons point rest ih =>
      have hpoint : readUnits (within isName .plain units stack)
          (textUnits (codePointText point)) =
            some (within isName .plain (units ++ point.units) stack) := by
        cases point with
        | char c => exact read_jsonCharText c isName units stack
        | lone unit =>
            have h := @read_unicodeEscape Number _ unit.toNat unit.toNat_lt isName units stack
            rw [UInt16.ofNat_toNat] at h
            exact h
      rw [List.flatMap_cons, readUnits_text_append, hpoint, Option.bind_some, ih,
        List.flatMap_cons, List.append_assoc]

theorem read_quoted (text : ScriptString) (isName : Bool) (stack : List (ReadFrame Number)) :
    readUnits (within isName .plain [] stack)
        (textUnits ((codePoints text).flatMap codePointText ++ ['"'])) =
      some (closed isName text stack) := by
  rw [readUnits_text_append, read_codePoints, Option.bind_some, units_codePoints, List.nil_append]
  rfl

/-!
## Ends of values
-/

theorem numberStep_of_not_neutral {c : Char} (h : isNeutral c = false) (phase : NumberPhase) :
    numberStep phase c = none := by
  cases hstep : numberStep phase c with
  | none => rfl
  | some next =>
      rw [isNeutral_of_numberStep hstep] at h
      cases h

theorem readUnits_of_holds {mode : ReadMode Number} {tree : GraphValue Number}
    (h : Holds mode tree) {c : Char} (hc : isNeutral c = false) (hbasic : c.toNat < 0x10000)
    (stack : List (ReadFrame Number)) (rest : List Char) :
    readUnits { mode, stack } (textUnits (c :: rest)) =
      (afterTree tree stack c).bind fun next => readUnits next (textUnits rest) := by
  have hunit : readUnit { mode, stack } (UInt16.ofNat c.toNat) = afterTree tree stack c := by
    cases h with
    | done tree =>
        show afterTree tree stack (unitChar _) = _
        rw [unitChar_ofNat hbasic]
    | number phase text hcomplete =>
        unfold readUnit
        dsimp only
        rw [unitChar_ofNat hbasic, numberStep_of_not_neutral hc phase]
        exact if_pos hcomplete
  rw [readUnits_char _ hbasic, hunit]

theorem readResult_of_holds {mode : ReadMode Number} {tree : GraphValue Number}
    (h : Holds mode tree) : readResult { mode, stack := [] } = some tree := by
  cases h with
  | done tree => rfl
  | number phase text hcomplete => exact if_pos hcomplete

/-!
## Number literals
-/

theorem readUnits_number {text : List Char} {phase final : NumberPhase}
    (h : text.foldlM numberStep phase = some final) (before : List Char)
    (stack : List (ReadFrame Number)) :
    readUnits { mode := .number phase before, stack } (textUnits text) =
      some { mode := .number final (before ++ text), stack } := by
  induction text generalizing phase before with
  | nil =>
      cases h
      rw [List.append_nil]
      rfl
  | cons c rest ih =>
      rw [List.foldlM_cons] at h
      rcases Option.bind_eq_some_iff.mp h with ⟨next, hnext, hrest⟩
      rcases charUnits_of_numberStep hnext with ⟨hunits, hchar⟩
      have hstep : readUnit { mode := .number phase before, stack } (UInt16.ofNat c.toNat) =
          some { mode := .number next (before ++ [c]), stack } := by
        unfold readUnit
        dsimp only
        rw [hchar, hnext]
      rw [textUnits, List.flatMap_cons, hunits, List.singleton_append, readUnits_cons, hstep,
        Option.bind_some]
      show readUnits _ (textUnits rest) = _
      rw [ih hrest, List.append_assoc]
      rfl

theorem readUnit_of_startTree {c : Char} {mode : ReadMode Number}
    (hmode : mode = .value ∨ mode = .firstItem) (hspace : isJsonSpace c = false)
    (hclose : (c == ']') = false) (hchar : unitChar (UInt16.ofNat c.toNat) = c)
    (stack : List (ReadFrame Number)) :
    readUnit { mode, stack } (UInt16.ofNat c.toNat) = startTree stack c := by
  cases hmode with
  | inl hvalue =>
      rw [hvalue]
      unfold readUnit
      dsimp only
      rw [hchar, hspace]
      rfl
  | inr hfirst =>
      rw [hfirst]
      unfold readUnit
      dsimp only
      rw [hchar, hspace, hclose]
      rfl

theorem readUnits_start {c : Char} {mode : ReadMode Number}
    (hmode : mode = .value ∨ mode = .firstItem) (hspace : isJsonSpace c = false)
    (hclose : (c == ']') = false) (hbasic : c.toNat < 0x10000) (stack : List (ReadFrame Number))
    (rest : List Char) :
    readUnits { mode, stack } (textUnits (c :: rest)) =
      (startTree stack c).bind fun next => readUnits next (textUnits rest) := by
  rw [readUnits_char _ hbasic, readUnit_of_startTree hmode hspace hclose (unitChar_ofNat hbasic)]

theorem exists_read_number (value : Number) {mode : ReadMode Number}
    (hmode : mode = .value ∨ mode = .firstItem) (stack : List (ReadFrame Number)) :
    exists final, readUnits { mode, stack } (textUnits (ScriptNumber.text value)) =
        some { mode := final, stack } ∧ Holds final (.number (.finite value)) := by
  have hliteral := ScriptNumber.isNumberLiteral_text value
  rw [isNumberLiteral] at hliteral
  split at hliteral
  · next final hfinal =>
    cases htext : ScriptNumber.text value with
    | nil =>
        rw [htext] at hfinal
        cases hfinal
        cases hliteral
    | cons c rest =>
        rw [htext, List.foldlM_cons] at hfinal
        rcases Option.bind_eq_some_iff.mp hfinal with ⟨phase, hphase, hrest⟩
        rcases charUnits_of_numberStep hphase with ⟨hunits, hchar⟩
        have hne : forall d : Char, numberStep .start d = none -> (c == d) = false := by
          intro d hd
          rw [beq_eq_false_iff_ne]
          intro heq
          rw [heq, hd] at hphase
          cases hphase
        have hspace : isJsonSpace c = false := by
          rw [isJsonSpace, hne ' ' rfl, hne '\t' rfl, hne '\n' rfl, hne '\r' rfl]
          rfl
        have hstart : startTree stack c = some { mode := .number phase [c], stack } := by
          rw [startTree, hne '"' rfl, hne '[' rfl, hne '\x7b' rfl, hne 'n' rfl, hne 't' rfl,
            hne 'f' rfl, hphase]
          rfl
        refine ⟨.number final (c :: rest), ?_, ?_⟩
        · rw [textUnits, List.flatMap_cons, hunits, List.singleton_append, readUnits_cons,
            readUnit_of_startTree hmode hspace (hne ']' rfl) hchar, hstart, Option.bind_some]
          exact readUnits_number hrest [c] stack
        · have hread := ScriptNumber.read_text value
          rw [htext] at hread
          rw [← hread]
          exact Holds.number final (c :: rest) hliteral
  · cases hliteral

/-!
## The text of a value

The text of a value brings the reader from the place where a value may start to the end of that
value, whatever is open around it.
-/

/-- The end of the last item, with the items before it still open. -/
def AtItemsEnd (items : List (GraphValue Number)) (stack : List (ReadFrame Number))
    (state : ReadState Number) : Prop :=
  exists before last mode, items = before ++ [last] ∧
    state = { mode, stack := .array before :: stack } ∧ Holds mode last

def AtMembersEnd (members : GraphMembers Number) (stack : List (ReadFrame Number))
    (state : ReadState Number) : Prop :=
  exists before name last mode, members = before ++ [(name, last)] ∧
    state = { mode, stack := .member before name :: stack } ∧ Holds mode last

theorem readUnits_bracket {items : List (GraphValue Number)} {stack : List (ReadFrame Number)}
    {state : ReadState Number} (h : AtItemsEnd items stack state) :
    readUnits state (textUnits [']']) = some { mode := .done (.array items), stack } := by
  rcases h with ⟨before, last, mode, rfl, rfl, hholds⟩
  rw [readUnits_of_holds hholds (by decide) (by decide)]
  rfl

theorem readUnits_brace {members : GraphMembers Number} {stack : List (ReadFrame Number)}
    {state : ReadState Number} (h : AtMembersEnd members stack state) :
    readUnits state (textUnits ['\x7d']) = some { mode := .done (.object members), stack } := by
  rcases h with ⟨before, name, last, mode, rfl, rfl, hholds⟩
  rw [readUnits_of_holds hholds (by decide) (by decide)]
  rfl

mutual

theorem exists_read_stringify : forall (value : BoundedJsonValue Number) {mode : ReadMode Number},
    mode = .value ∨ mode = .firstItem -> forall stack : List (ReadFrame Number),
      exists final, readUnits { mode, stack } (textUnits (stringify value)) =
          some { mode := final, stack } ∧ Holds final (parsedTree value)
  | .null, mode, hmode, stack => by
      refine ⟨.done .null, ?_, Holds.done _⟩
      rw [stringify]
      cases hmode with
      | inl hvalue =>
          rw [hvalue]
          rfl
      | inr hfirst =>
          rw [hfirst]
          rfl
  | .bool true, mode, hmode, stack => by
      refine ⟨.done (.bool true), ?_, Holds.done _⟩
      rw [stringify, if_pos rfl]
      cases hmode with
      | inl hvalue =>
          rw [hvalue]
          rfl
      | inr hfirst =>
          rw [hfirst]
          rfl
  | .bool false, mode, hmode, stack => by
      refine ⟨.done (.bool false), ?_, Holds.done _⟩
      rw [stringify, if_neg (by decide)]
      cases hmode with
      | inl hvalue =>
          rw [hvalue]
          rfl
      | inr hfirst =>
          rw [hfirst]
          rfl
  | .number value, mode, hmode, stack => by
      rw [stringify]
      exact exists_read_number value hmode stack
  | .string text, mode, hmode, stack => by
      refine ⟨.done (.string text), ?_, Holds.done _⟩
      rw [stringify, quoteText, List.cons_append,
        readUnits_start hmode (by decide) (by decide) (by decide)]
      exact read_quoted text false stack
  | .array items, mode, hmode, stack => by
      refine ⟨.done (.array (parsedItems items)), ?_, Holds.done _⟩
      rw [stringify, List.cons_append, readUnits_start hmode (by decide) (by decide) (by decide)]
      show readUnits { mode := .firstItem, stack := .array [] :: stack } _ = _
      cases items with
      | nil => rfl
      | cons item rest =>
          rcases exists_read_items (item :: rest) (Or.inr rfl) [] stack (List.cons_ne_nil _ _)
            with ⟨state, hstate, hend⟩
          rw [readUnits_text_append, hstate, Option.bind_some, readUnits_bracket hend]
          rfl
  | .object members, mode, hmode, stack => by
      refine ⟨.done (.object (parsedMembers members)), ?_, Holds.done _⟩
      rw [stringify, List.cons_append, readUnits_start hmode (by decide) (by decide) (by decide)]
      show readUnits { mode := .firstMember, stack := .object [] :: stack } _ = _
      cases members with
      | nil => rfl
      | cons member rest =>
          rcases exists_read_members (member :: rest) (Or.inr rfl) [] stack
            (List.cons_ne_nil _ _) with ⟨state, hstate, hend⟩
          rw [readUnits_text_append, hstate, Option.bind_some, readUnits_brace hend]
          rfl

theorem exists_read_items : forall (items : List (BoundedJsonValue Number))
    {mode : ReadMode Number}, mode = .value ∨ mode = .firstItem ->
      forall (read : List (GraphValue Number)) (stack : List (ReadFrame Number)), items ≠ [] ->
        exists state,
          readUnits { mode, stack := .array read :: stack }
              (textUnits (commaJoin (stringifyItems items))) = some state ∧
            AtItemsEnd (read ++ parsedItems items) stack state
  | [], _, _, _, _, hne => absurd rfl hne
  | [item], mode, hmode, read, stack, _ => by
      rcases exists_read_stringify item hmode (.array read :: stack) with ⟨final, hfinal, hholds⟩
      exact ⟨_, hfinal, read, parsedTree item, final, rfl, rfl, hholds⟩
  | item :: next :: rest, mode, hmode, read, stack, _ => by
      rcases exists_read_stringify item hmode (.array read :: stack) with ⟨final, hfinal, hholds⟩
      rcases exists_read_items (next :: rest) (Or.inl rfl) (read ++ [parsedTree item]) stack
        (List.cons_ne_nil _ _) with ⟨last, hlast, hend⟩
      refine ⟨last, ?_, ?_⟩
      · rw [stringifyItems, commaJoin_cons (stringifyItems_ne_nil (List.cons_ne_nil _ _)),
          readUnits_text_append, hfinal, Option.bind_some,
          readUnits_of_holds hholds (by decide) (by decide)]
        exact hlast
      · rw [List.append_assoc] at hend
        exact hend

theorem exists_read_members : forall (members : List (ScriptString × BoundedJsonValue Number))
    {mode : ReadMode Number}, mode = .member ∨ mode = .firstMember ->
      forall (read : GraphMembers Number) (stack : List (ReadFrame Number)), members ≠ [] ->
        exists state,
          readUnits { mode, stack := .object read :: stack }
              (textUnits (commaJoin (stringifyMembers members))) = some state ∧
            AtMembersEnd (read ++ parsedMembers members) stack state
  | [], _, _, _, _, hne => absurd rfl hne
  | [(name, value)], mode, hmode, read, stack, _ => by
      rcases exists_read_member name value hmode read stack with ⟨final, hfinal, hholds⟩
      exact ⟨_, hfinal, read, name, parsedTree value, final, rfl, rfl, hholds⟩
  | (name, value) :: next :: rest, mode, hmode, read, stack, _ => by
      rcases exists_read_member name value hmode read stack with ⟨final, hfinal, hholds⟩
      rcases exists_read_members (next :: rest) (Or.inl rfl) (read ++ [(name, parsedTree value)])
        stack (List.cons_ne_nil _ _) with ⟨last, hlast, hend⟩
      refine ⟨last, ?_, ?_⟩
      · rw [stringifyMembers, commaJoin_cons (stringifyMembers_ne_nil (List.cons_ne_nil _ _)),
          readUnits_text_append, hfinal, Option.bind_some,
          readUnits_of_holds hholds (by decide) (by decide)]
        exact hlast
      · rw [List.append_assoc] at hend
        exact hend

theorem exists_read_member (name : ScriptString) (value : BoundedJsonValue Number)
    {mode : ReadMode Number} (hmode : mode = .member ∨ mode = .firstMember)
    (read : GraphMembers Number) (stack : List (ReadFrame Number)) :
    exists final,
      readUnits { mode, stack := .object read :: stack }
          (textUnits (quoteText name ++ ':' :: stringify value)) =
        some { mode := final, stack := .member read name :: stack } ∧
      Holds final (parsedTree value) := by
  rcases exists_read_stringify value (Or.inl rfl) (.member read name :: stack) with
    ⟨final, hfinal, hholds⟩
  refine ⟨final, ?_, hholds⟩
  have hopen : readUnit { mode, stack := .object read :: stack } (UInt16.ofNat ('"' : Char).toNat) =
      some (within true .plain [] (.object read :: stack)) := by
    cases hmode with
    | inl hmember =>
        rw [hmember]
        rfl
    | inr hfirst =>
        rw [hfirst]
        rfl
  rw [quoteText, List.cons_append, List.cons_append, readUnits_char _ (by decide), hopen,
    Option.bind_some, readUnits_text_append, read_quoted, Option.bind_some,
    readUnits_char _ (by decide)]
  exact hfinal

end

/-- The text that is written for a tree is read as the tree. -/
theorem readJson_stringify (value : BoundedJsonValue Number) :
    readJson (textUnits (stringify value)) = some (parsedTree value) := by
  rcases exists_read_stringify value (Or.inl rfl) [] with ⟨final, hfinal, hholds⟩
  rw [readJson, hfinal]
  exact readResult_of_holds hholds

/-- No two trees are written as one text, even if they differ in the order of members only. -/
theorem stringify_injective_trees {left right : BoundedJsonValue Number}
    (h : stringify left = stringify right) : left = right := by
  apply parsedTree_injective
  have hread := readJson_stringify left
  rw [h, readJson_stringify] at hread
  exact (Option.some.inj hread).symm

end

end JsonBoundaries
end Pertexo
