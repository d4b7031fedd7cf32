import Pertexo.Pages.Records
import Pertexo.Pagination.Inspection

/-!
# Values at a boundary

What reflection reports about a value. An array or an object has an identity. The items of an
array say whether they are enumerable; next to its items an array may have further names that
are enumerable and names that are not. The members of an object are its enumerable own keys.
-/

namespace Pertexo
namespace JsonBoundaries

open Canonical
open Library
open Values

/-- An accessor answers with a value when it is read, and its descriptor holds none. -/
inductive OwnProperty (α : Type) where
  | missing
  | accessor (answer : α)
  | data (value : α)

def OwnProperty.isPresent : OwnProperty α -> Bool
  | .missing => false
  | _ => true

inductive ProgramValue (Number : Type) where
  | null
  | bool (value : Bool)
  | number (value : NumberValue Number)
  | string (text : ScriptString)
  | unsupported (typeName : String)
  | array (identity : Nat) (hasSymbols : Bool) (hiddenNames shownNames : Nat)
      (items : List (Bool × OwnProperty (ProgramValue Number)))
  | object (identity : Nat) (isPlain hasSymbols : Bool) (hiddenNames : Nat)
      (members : List (ScriptString × OwnProperty (ProgramValue Number)))

section

variable {Number : Type}

/-!
## Reading a value
-/

/-- The enumerable items of an array with their indices, counted from `index`. -/
def shownItems (index : Nat) :
    List (Bool × OwnProperty (ProgramValue Number)) -> List (Nat × ProgramValue Number)
  | [] => []
  | (true, .data value) :: rest => (index, value) :: shownItems (index + 1) rest
  | (true, .accessor answer) :: rest => (index, answer) :: shownItems (index + 1) rest
  | _ :: rest => shownItems (index + 1) rest

/-- The items of an array that hold data, enumerable or not, with their indices. -/
def heldItems (index : Nat) :
    List (Bool × OwnProperty (ProgramValue Number)) -> List (Nat × ProgramValue Number)
  | [] => []
  | (_, .data value) :: rest => (index, value) :: heldItems (index + 1) rest
  | _ :: rest => heldItems (index + 1) rest

/-- The members of an object as a script reads them. -/
def readMembers :
    List (ScriptString × OwnProperty (ProgramValue Number)) ->
      List (ScriptString × ProgramValue Number)
  | [] => []
  | (key, .data value) :: rest => (key, value) :: readMembers rest
  | (key, .accessor answer) :: rest => (key, answer) :: readMembers rest
  | (_, .missing) :: rest => readMembers rest

mutual

/-- The number of values and of missing ones within the value, counting itself. -/
def ProgramValue.size : ProgramValue Number -> Nat
  | .array _ _ _ _ items => 1 + sizeOfItems items
  | .object _ _ _ _ members => 1 + sizeOfMembers members
  | _ => 1

def sizeOfItems : List (Bool × OwnProperty (ProgramValue Number)) -> Nat
  | [] => 0
  | (_, .data value) :: rest => value.size + sizeOfItems rest
  | (_, .accessor answer) :: rest => answer.size + sizeOfItems rest
  | (_, .missing) :: rest => 1 + sizeOfItems rest

def sizeOfMembers : List (ScriptString × OwnProperty (ProgramValue Number)) -> Nat
  | [] => 0
  | (_, .data value) :: rest => value.size + sizeOfMembers rest
  | (_, .accessor answer) :: rest => answer.size + sizeOfMembers rest
  | (_, .missing) :: rest => 1 + sizeOfMembers rest

end

theorem size_pos (value : ProgramValue Number) : 0 < value.size := by
  cases value <;> simp only [ProgramValue.size] <;> omega

theorem sizes_shownItems (items : List (Bool × OwnProperty (ProgramValue Number))) (index : Nat) :
    ((shownItems index items).map fun item => item.snd.size).sum ≤ sizeOfItems items := by
  induction items generalizing index with
  | nil => exact Nat.le_refl _
  | cons item rest ih =>
      have hrest := ih (index + 1)
      rcases item with ⟨isEnumerable, property⟩
      cases property with
      | missing =>
          cases isEnumerable with
          | true => exact Nat.le_trans hrest (Nat.le_add_left _ _)
          | false => exact Nat.le_trans hrest (Nat.le_add_left _ _)
      | accessor answer =>
          cases isEnumerable with
          | true =>
              rw [shownItems, List.map_cons, List.sum_cons, sizeOfItems]
              exact Nat.add_le_add_left hrest _
          | false => exact Nat.le_trans hrest (Nat.le_add_left _ _)
      | data value =>
          cases isEnumerable with
          | true =>
              rw [shownItems, List.map_cons, List.sum_cons, sizeOfItems]
              exact Nat.add_le_add_left hrest _
          | false => exact Nat.le_trans hrest (Nat.le_add_left _ _)

theorem sizes_heldItems (items : List (Bool × OwnProperty (ProgramValue Number))) (index : Nat) :
    ((heldItems index items).map fun item => item.snd.size).sum ≤ sizeOfItems items := by
  induction items generalizing index with
  | nil => exact Nat.le_refl _
  | cons item rest ih =>
      have hrest := ih (index + 1)
      rcases item with ⟨isEnumerable, property⟩
      cases property with
      | missing => exact Nat.le_trans hrest (Nat.le_add_left _ _)
      | accessor answer => exact Nat.le_trans hrest (Nat.le_add_left _ _)
      | data value =>
          rw [heldItems, List.map_cons, List.sum_cons, sizeOfItems]
          exact Nat.add_le_add_left hrest _

theorem sizes_readMembers (members : List (ScriptString × OwnProperty (ProgramValue Number))) :
    ((readMembers members).map fun member => member.snd.size).sum ≤ sizeOfMembers members := by
  induction members with
  | nil => exact Nat.le_refl _
  | cons member rest ih =>
      rcases member with ⟨key, property⟩
      cases property with
      | missing => exact Nat.le_trans ih (Nat.le_add_left _ _)
      | accessor answer =>
          rw [readMembers, List.map_cons, List.sum_cons, sizeOfMembers]
          exact Nat.add_le_add_left ih _
      | data value =>
          rw [readMembers, List.map_cons, List.sum_cons, sizeOfMembers]
          exact Nat.add_le_add_left ih _

/-!
## JSON values
-/

variable [ScriptNumber Number]

mutual

/-- The tree that a value stands for, if it is made of nothing but JSON data. -/
def ProgramValue.json? : ProgramValue Number -> Option (BoundedJsonValue Number)
  | .null => some .null
  | .bool value => some (.bool value)
  | .number (.finite value) => some (.number value)
  | .number .negativeZero => some (.number ScriptNumber.zero)
  | .number .notFinite => none
  | .string text => some (.string text)
  | .unsupported _ => none
  | .array _ hasSymbols hiddenNames shownNames items =>
      if hasSymbols || hiddenNames != 0 || shownNames != 0 then none
      else (jsonOfItems items).map .array
  | .object _ isPlain hasSymbols _ members =>
      if !isPlain || hasSymbols then none else (jsonOfMembers members).map .object

def jsonOfItems :
    List (Bool × OwnProperty (ProgramValue Number)) -> Option (List (BoundedJsonValue Number))
  | [] => some []
  | (true, .data value) :: rest => do
      let first ← value.json?
      let others ← jsonOfItems rest
      some (first :: others)
  | _ :: _ => none

def jsonOfMembers : List (ScriptString × OwnProperty (ProgramValue Number)) ->
    Option (List (ScriptString × BoundedJsonValue Number))
  | [] => some []
  | (key, .data value) :: rest => do
      let first ← value.json?
      let others ← jsonOfMembers rest
      some ((key, first) :: others)
  | _ :: _ => none

end

theorem array_of_json {identity hiddenNames shownNames : Nat} {hasSymbols : Bool}
    {items : List (Bool × OwnProperty (ProgramValue Number))} {data : BoundedJsonValue Number}
    (h : (ProgramValue.array identity hasSymbols hiddenNames shownNames items).json? =
      some data) :
    hasSymbols = false ∧ hiddenNames = 0 ∧ shownNames = 0 ∧
      exists others, jsonOfItems items = some others ∧ data = .array others := by
  rw [ProgramValue.json?] at h
  split at h
  · cases h
  · next hplain =>
    simp only [Bool.or_eq_true, bne_iff_ne, not_or, not_not, Bool.not_eq_true] at hplain
    rcases Option.map_eq_some_iff.mp h with ⟨others, hitems, rfl⟩
    exact ⟨hplain.left.left, hplain.left.right, hplain.right, others, hitems, rfl⟩

theorem object_of_json {identity hiddenNames : Nat} {isPlain hasSymbols : Bool}
    {members : List (ScriptString × OwnProperty (ProgramValue Number))}
    {data : BoundedJsonValue Number}
    (h : (ProgramValue.object identity isPlain hasSymbols hiddenNames members).json? =
      some data) :
    isPlain = true ∧ hasSymbols = false ∧
      exists others, jsonOfMembers members = some others ∧ data = .object others := by
  rw [ProgramValue.json?] at h
  split at h
  · cases h
  · next hplain =>
    simp only [Bool.or_eq_true, not_or, Bool.not_eq_true, Bool.not_eq_false'] at hplain
    rcases Option.map_eq_some_iff.mp h with ⟨others, hmembers, rfl⟩
    exact ⟨hplain.left, hplain.right, others, hmembers, rfl⟩

/-- The values whose data holds nothing within. -/
inductive IsScalar : ProgramValue Number -> BoundedJsonValue Number -> Prop
  | null : IsScalar .null .null
  | bool (value : Bool) : IsScalar (.bool value) (.bool value)
  | string (text : ScriptString) : IsScalar (.string text) (.string text)
  | finite (value : Number) : IsScalar (.number (.finite value)) (.number value)
  | negativeZero : IsScalar (.number .negativeZero) (.number ScriptNumber.zero)

theorem isScalar_of_json {value : ProgramValue Number} {data : BoundedJsonValue Number}
    (hdata : value.json? = some data) (hscalar : data.isScalar = true) : IsScalar value data := by
  cases value with
  | null => exact Option.some.inj hdata ▸ .null
  | bool value => exact Option.some.inj hdata ▸ .bool value
  | string text => exact Option.some.inj hdata ▸ .string text
  | number value =>
      cases value with
      | finite value => exact Option.some.inj hdata ▸ .finite value
      | negativeZero => exact Option.some.inj hdata ▸ .negativeZero
      | notFinite => cases hdata
  | unsupported typeName => cases hdata
  | array identity hasSymbols hiddenNames shownNames items =>
      rcases array_of_json hdata with ⟨_, _, _, others, _, rfl⟩
      cases hscalar
  | object identity isPlain hasSymbols hiddenNames members =>
      rcases object_of_json hdata with ⟨_, _, others, _, rfl⟩
      cases hscalar

/-- An item of an array that stands for the data. -/
def IsItem (item : Bool × OwnProperty (ProgramValue Number)) (data : BoundedJsonValue Number) :
    Prop :=
  exists value, item = (true, .data value) ∧ value.json? = some data

def IsMember (member : ScriptString × OwnProperty (ProgramValue Number))
    (data : ScriptString × BoundedJsonValue Number) : Prop :=
  exists value, member = (data.fst, .data value) ∧ value.json? = some data.snd

theorem items_of_jsonOfItems {items : List (Bool × OwnProperty (ProgramValue Number))}
    {data : List (BoundedJsonValue Number)} (h : jsonOfItems items = some data) :
    List.Forall₂ IsItem items data := by
  induction items generalizing data with
  | nil =>
      cases h
      exact List.Forall₂.nil
  | cons item rest ih =>
      rcases item with ⟨isEnumerable, property⟩
      cases isEnumerable with
      | false => cases h
      | true =>
          cases property with
          | missing => cases h
          | accessor answer => cases h
          | data value =>
              rw [jsonOfItems] at h
              rcases Option.bind_eq_some_iff.mp h with ⟨first, hfirst, h⟩
              rcases Option.bind_eq_some_iff.mp h with ⟨others, hothers, h⟩
              cases h
              exact List.Forall₂.cons ⟨value, rfl, hfirst⟩ (ih hothers)

theorem members_of_jsonOfMembers
    {members : List (ScriptString × OwnProperty (ProgramValue Number))}
    {data : List (ScriptString × BoundedJsonValue Number)}
    (h : jsonOfMembers members = some data) : List.Forall₂ IsMember members data := by
  induction members generalizing data with
  | nil =>
      cases h
      exact List.Forall₂.nil
  | cons member rest ih =>
      rcases member with ⟨key, property⟩
      cases property with
      | missing => cases h
      | accessor answer => cases h
      | data value =>
          rw [jsonOfMembers] at h
          rcases Option.bind_eq_some_iff.mp h with ⟨first, hfirst, h⟩
          rcases Option.bind_eq_some_iff.mp h with ⟨others, hothers, h⟩
          cases h
          exact List.Forall₂.cons ⟨value, rfl, hfirst⟩ (ih hothers)

theorem length_of_jsonOfItems {items : List (Bool × OwnProperty (ProgramValue Number))}
    {data : List (BoundedJsonValue Number)} (h : jsonOfItems items = some data) :
    items.length = data.length :=
  (items_of_jsonOfItems h).length_eq

theorem shown_of_jsonOfItems {items : List (Bool × OwnProperty (ProgramValue Number))}
    {data : List (BoundedJsonValue Number)} (h : jsonOfItems items = some data)
    {item : Bool × OwnProperty (ProgramValue Number)} (hitem : item ∈ items) :
    exists value, item = (true, .data value) := by
  rcases exists_of_mem_left (items_of_jsonOfItems h) hitem with ⟨_, _, value, hvalue, _⟩
  exact ⟨value, hvalue⟩

theorem data_of_jsonOfMembers {members : List (ScriptString × OwnProperty (ProgramValue Number))}
    {data : List (ScriptString × BoundedJsonValue Number)} (h : jsonOfMembers members = some data)
    {member : ScriptString × OwnProperty (ProgramValue Number)} (hmember : member ∈ members) :
    exists value, member.snd = .data value := by
  rcases exists_of_mem_left (members_of_jsonOfMembers h) hmember with ⟨_, _, value, hvalue, _⟩
  exact ⟨value, congrArg Prod.snd hvalue⟩

theorem keys_of_jsonOfMembers {members : List (ScriptString × OwnProperty (ProgramValue Number))}
    {data : List (ScriptString × BoundedJsonValue Number)}
    (h : jsonOfMembers members = some data) : members.map Prod.fst = data.map Prod.fst := by
  have hmembers := members_of_jsonOfMembers h
  clear h
  induction hmembers with
  | nil => rfl
  | cons hfirst _ ih =>
      rcases hfirst with ⟨value, hvalue, _⟩
      rw [List.map_cons, List.map_cons, ih, hvalue]

omit [ScriptNumber Number] in
theorem keys_readMembers {members : List (ScriptString × OwnProperty (ProgramValue Number))}
    (h : forall member, member ∈ members -> exists value, member.snd = .data value) :
    (readMembers members).map Prod.fst = members.map Prod.fst := by
  induction members with
  | nil => rfl
  | cons member rest ih =>
      rcases member with ⟨key, property⟩
      rcases h _ List.mem_cons_self with ⟨value, rfl⟩
      rw [readMembers, List.map_cons, List.map_cons,
        ih fun other hother => h other (List.mem_cons_of_mem _ hother)]

mutual

/-- No array and no object of the value is within itself. -/
def ProgramValue.IsAcyclic (ancestors : List Nat) : ProgramValue Number -> Prop
  | .array identity _ _ _ items =>
      identity ∉ ancestors ∧ AreAcyclicItems (identity :: ancestors) items
  | .object identity _ _ _ members =>
      identity ∉ ancestors ∧ AreAcyclicMembers (identity :: ancestors) members
  | _ => True

def AreAcyclicItems (ancestors : List Nat) :
    List (Bool × OwnProperty (ProgramValue Number)) -> Prop
  | [] => True
  | (_, .data value) :: rest => value.IsAcyclic ancestors ∧ AreAcyclicItems ancestors rest
  | _ :: rest => AreAcyclicItems ancestors rest

def AreAcyclicMembers (ancestors : List Nat) :
    List (ScriptString × OwnProperty (ProgramValue Number)) -> Prop
  | [] => True
  | (_, .data value) :: rest => value.IsAcyclic ancestors ∧ AreAcyclicMembers ancestors rest
  | _ :: rest => AreAcyclicMembers ancestors rest

end

end

/-!
## Lengths of texts in bytes

The length of a text as UTF-8, and the length of a string as a JSON text, are counted one code
point after the other. With a budget the count ends as soon as it is larger than the budget.
-/

def exceedsBudget (maximum : Option Int) (bytes : Nat) : Bool :=
  match maximum with
  | none => false
  | some maximum => decide (maximum < bytes)

def countPoints (measure : CodePoint -> Nat) (maximum : Option Int) :
    List CodePoint -> Nat -> Nat
  | [], bytes => bytes
  | character :: rest, bytes =>
      let counted := bytes + measure character
      if exceedsBudget maximum counted then counted else countPoints measure maximum rest counted

def scalarUtf8Bytes : CodePoint -> Nat
  | .char c => if 0x10000 ≤ c.toNat then 4 else if c.toNat ≤ 0x7f then 1
      else if c.toNat ≤ 0x7ff then 2 else 3
  | .lone _ => 3

/-- The length of a string in bytes, by its characters. -/
def utf8ByteLength (value : List CodePoint) (stopAfterBytes : Option Int) : Nat :=
  countPoints scalarUtf8Bytes stopAfterBytes value 0

def jsonPointBytes : CodePoint -> Nat
  | .char c =>
      if shortJsonEscapes.contains c then 2
      else if c.toNat ≤ 0x1f then 6
      else scalarUtf8Bytes (.char c)
  | .lone _ => 6

def jsonStringByteLength (value : ScriptString) (stopAfterBytes : Option Int) : Nat :=
  if exceedsBudget stopAfterBytes 2 then 2
  else countPoints jsonPointBytes stopAfterBytes (codePoints value) 2

/-!
## Early ends
-/

theorem countPoints_none (measure : CodePoint -> Nat) (points : List CodePoint) (bytes : Nat) :
    countPoints measure none points bytes = bytes + (points.map measure).sum := by
  induction points generalizing bytes with
  | nil => rfl
  | cons point rest ih =>
      rw [List.map_cons, List.sum_cons, ← Nat.add_assoc]
      exact ih (bytes + measure point)

/-- A count that may end early is the whole count, or both are larger than the budget. -/
theorem countPoints_some (measure : CodePoint -> Nat) (maximum : Int) (points : List CodePoint)
    (bytes : Nat) :
    countPoints measure (some maximum) points bytes = countPoints measure none points bytes ∨
      (maximum < countPoints measure (some maximum) points bytes ∧
        maximum < countPoints measure none points bytes) := by
  induction points generalizing bytes with
  | nil => exact Or.inl rfl
  | cons point rest ih =>
      cases hexceeds : exceedsBudget (some maximum) (bytes + measure point) with
      | false =>
          have hrest := ih (bytes + measure point)
          simp only [countPoints, hexceeds] at hrest ⊢
          exact hrest
      | true =>
          apply Or.inr
          have hbytes : maximum < (bytes + measure point : Nat) := of_decide_eq_true hexceeds
          have hwhole := countPoints_none measure (point :: rest) bytes
          rw [List.map_cons, List.sum_cons] at hwhole
          constructor
          · simp only [countPoints, hexceeds, if_true]
            exact hbytes
          · rw [hwhole]
            omega

/-- The lengths of a text within a budget and without one, as far as a limit tells them apart. -/
def SameWithin (maximum : Int) (length whole : Nat) : Prop :=
  length = whole ∨ (maximum < length ∧ maximum < whole)

theorem utf8ByteLength_sameWithin (value : List CodePoint) (maximum : Int) :
    SameWithin maximum (utf8ByteLength value (some maximum)) (utf8ByteLength value none) :=
  countPoints_some scalarUtf8Bytes maximum value 0

theorem jsonStringByteLength_sameWithin (value : ScriptString) (maximum : Int) :
    SameWithin maximum (jsonStringByteLength value (some maximum))
      (jsonStringByteLength value none) := by
  have hcount := countPoints_some jsonPointBytes maximum (codePoints value) 2
  have hwhole := countPoints_none jsonPointBytes (codePoints value) 2
  rw [jsonStringByteLength, jsonStringByteLength]
  cases hexceeds : exceedsBudget (some maximum) 2 with
  | false => exact hcount
  | true =>
      apply Or.inr
      have hmaximum : maximum < (2 : Nat) := of_decide_eq_true hexceeds
      constructor
      · exact hmaximum
      · show maximum < (countPoints jsonPointBytes none (codePoints value) 2 : Nat)
        rw [hwhole]
        omega

/-!
## The text of a string
-/

theorem scalarUtf8Bytes_char (c : Char) : scalarUtf8Bytes (.char c) = c.utf8Size := by
  have hvalue : c.toNat = c.val.toNat := rfl
  simp only [scalarUtf8Bytes, Char.utf8Size, hvalue, UInt32.le_iff_toNat_le, UInt32.toNat_ofNatLT]
  split
  · rw [if_neg (by omega), if_neg (by omega), if_neg (by omega)]
  · split
    · rfl
    · split
      · rfl
      · rw [if_pos (by omega)]

theorem utf8ByteLength_none (text : List Char) :
    utf8ByteLength (text.map CodePoint.char) none = Values.utf8ByteLength text := by
  rw [utf8ByteLength, countPoints_none, Nat.zero_add, List.map_map, Values.utf8ByteLength]
  congr 1
  exact List.map_congr_left fun c _ => scalarUtf8Bytes_char c

theorem utf8Size_digitChar {n : Nat} (h : n < 16) : (Nat.digitChar n).utf8Size = 1 := by
  have hall : forall m, m < 16 -> (Nat.digitChar m).utf8Size = 1 := by decide
  exact hall n h

theorem bytes_unicodeEscape {n : Nat} (h : n < 0x10000) :
    Values.utf8ByteLength (unicodeEscape n) = 6 := by
  have hslash : ('\\' : Char).utf8Size = 1 := by decide
  have hmark : ('u' : Char).utf8Size = 1 := by decide
  have hlead : n / 0x1000 < 16 := Nat.div_lt_of_lt_mul h
  rw [unicodeEscape]
  simp only [Pages.utf8ByteLength_cons, Pages.utf8ByteLength_nil]
  rw [hslash, hmark, utf8Size_digitChar hlead, utf8Size_digitChar (by omega),
    utf8Size_digitChar (by omega), utf8Size_digitChar (by omega)]

theorem bytes_jsonControlEscape (c : Char) :
    Values.utf8ByteLength (jsonControlEscape c) = 6 := by
  have hhex : forall m, m < 16 -> ("0123456789abcdef".toList.getD m '0').utf8Size = 1 := by decide
  have hstart : Values.utf8ByteLength "\\u00".toList = 4 := by decide
  have hfirst : (if c.toNat < 0x10 then '0' else '1').utf8Size = 1 := by
    split
    · decide
    · decide
  rw [jsonControlEscape, Pages.utf8ByteLength_append, hstart]
  simp only [Pages.utf8ByteLength_cons, Pages.utf8ByteLength_nil]
  rw [hfirst, hhex _ (Nat.mod_lt _ (by omega))]

theorem bytes_jsonCharText (c : Char) :
    Values.utf8ByteLength (jsonCharText c) = jsonPointBytes (.char c) := by
  by_cases hshort : c ∈ shortJsonEscapes
  · have hall : (shortJsonEscapes.all fun d =>
        Values.utf8ByteLength (jsonCharText d) == 2) = true := by decide
    have hlength := List.all_eq_true.mp hall c hshort
    rw [beq_iff_eq.mp hlength, jsonPointBytes, if_pos (List.contains_iff_mem.mpr hshort)]
  · have hnot : ¬ shortJsonEscapes.contains c = true := fun h =>
      hshort (List.contains_iff_mem.mp h)
    simp only [shortJsonEscapes, List.mem_cons, List.not_mem_nil, or_false, not_or] at hshort
    rcases hshort with ⟨hquote, hslash, hback, hfeed, hline, hreturn, htab⟩
    rw [jsonPointBytes, if_neg hnot, jsonCharText]
    simp only [beq_iff_eq, hquote, hslash, hback, hfeed, hline, hreturn, htab, if_false]
    by_cases hcontrol : c.toNat ≤ 0x1f
    · rw [if_pos hcontrol, if_pos hcontrol, bytes_jsonControlEscape]
    · rw [if_neg hcontrol, if_neg hcontrol, scalarUtf8Bytes_char]
      simp

theorem bytes_codePointText (point : CodePoint) :
    Values.utf8ByteLength (codePointText point) = jsonPointBytes point := by
  cases point with
  | char c => exact bytes_jsonCharText c
  | lone unit => exact bytes_unicodeEscape unit.toNat_lt

theorem bytes_codePointTexts (points : List CodePoint) :
    Values.utf8ByteLength (points.flatMap codePointText) = (points.map jsonPointBytes).sum := by
  induction points with
  | nil => rfl
  | cons point rest ih =>
      rw [List.flatMap_cons, Pages.utf8ByteLength_append, bytes_codePointText, ih, List.map_cons,
        List.sum_cons]

/-- The measure of a string is the length of the JSON text that is written for it. -/
theorem jsonStringByteLength_none (value : ScriptString) :
    jsonStringByteLength value none = Values.utf8ByteLength (quoteText value) := by
  have hquote : ('"' : Char).utf8Size = 1 := by decide
  rw [jsonStringByteLength]
  show countPoints jsonPointBytes none (codePoints value) 2 = _
  rw [countPoints_none, quoteText, List.cons_append, Pages.utf8ByteLength_cons,
    Pages.utf8ByteLength_append, bytes_codePointTexts]
  simp only [Pages.utf8ByteLength_cons, Pages.utf8ByteLength_nil]
  rw [hquote]
  omega

end JsonBoundaries
end Pertexo
