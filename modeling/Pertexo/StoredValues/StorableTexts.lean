import Pertexo.JsonBoundaries.SnapshotTotals
import Pertexo.StoredValues.StoredExecution

/-!
# Texts that are stored

A text is stored when it is well formed and has no zero character, and a value when all of its
texts and keys are. What is counted for a text that is not stored is more than is allowed.

## Measures of characters
-/

namespace Pertexo
namespace StoredValues

open JsonBoundaries
open Library
open Pages
open Pagination
open Values

theorem contains_shortJsonEscapes (c : Char) {unit : UInt16} (h : c.toNat = unit.toNat) :
    shortJsonEscapes.contains c = isShortEscape unit := by
  have hcodes : shortJsonEscapes.map Char.toNat =
      [0x22, 0x5c, 0x08, 0x0c, 0x0a, 0x0d, 0x09].map UInt16.toNat := by decide
  rw [Bool.eq_iff_iff, isShortEscape, List.contains_iff_mem, List.contains_iff_mem,
    ← List.mem_map_of_injective (fun _ _ hsame => UInt16.toNat.inj hsame), ← hcodes, ← h,
    List.mem_map_of_injective fun _ _ hsame => Char.toNat_inj.mp hsame]

theorem isShortEscape_lt {unit : UInt16} (h : isShortEscape unit = true) : unit.toNat < 0x80 := by
  have hall : ([0x22, 0x5c, 0x08, 0x0c, 0x0a, 0x0d, 0x09] : List UInt16).all
      (fun code => decide (code.toNat < 0x80)) = true := by decide
  have hsmall := List.all_eq_true.mp hall unit (List.contains_iff_mem.mp h)
  exact of_decide_eq_true hsmall

theorem bytes_singleUnit {unit : UInt16} (hhigh : isHighSurrogate unit = false)
    (hlow : isLowSurrogate unit = false) :
    jsonPointBytes (singleUnit unit) = storedUnitBytes unit ∧ storedUnitBytes unit ≠ 4 := by
  have hlt : unit.toNat < 0x10000 := unit.toNat_lt
  have hvalue : (Char.ofNat unit.toNat).toNat = unit.toNat := by
    apply toNat_charOfNat
    rw [isHighSurrogate, Bool.and_eq_false_iff, decide_eq_false_iff_not,
      decide_eq_false_iff_not] at hhigh
    rw [isLowSurrogate, Bool.and_eq_false_iff, decide_eq_false_iff_not,
      decide_eq_false_iff_not] at hlow
    omega
  have hpoint : jsonPointBytes (singleUnit unit) = storedUnitBytes unit := by
    rw [singleUnit, hhigh, hlow]
    show jsonPointBytes (.char (Char.ofNat unit.toNat)) = _
    rw [jsonPointBytes, contains_shortJsonEscapes _ hvalue, hvalue, storedUnitBytes,
      scalarUtf8Bytes, hvalue, unicodeWidth, hhigh, if_neg (by omega : ¬ 0x10000 ≤ unit.toNat)]
    rfl
  refine ⟨hpoint, ?_⟩
  rw [storedUnitBytes, unicodeWidth, hhigh]
  split
  · decide
  · split
    · decide
    · split
      · decide
      · split
        · decide
        · decide

theorem bytes_surrogatePair {high low : UInt16} (hhigh : isHighSurrogate high = true)
    (hlow : isLowSurrogate low = true) :
    jsonPointBytes (.char (surrogatePair high low)) = 4 ∧ storedUnitBytes high = 4 := by
  rw [isLowSurrogate_iff] at hlow
  have hbounds := isHighSurrogate_iff.mp hhigh
  have hvalue : (surrogatePair high low).toNat =
      0x10000 + (high.toNat - 0xD800) * 0x400 + (low.toNat - 0xDC00) :=
    toNat_charOfNat (by omega)
  have hshort : ¬ shortJsonEscapes.contains (surrogatePair high low) = true := by
    intro hcontains
    have hall : shortJsonEscapes.all (fun c => decide (c.toNat < 0x80)) = true := by decide
    have hmem := List.contains_iff_mem.mp hcontains
    have hsmall := of_decide_eq_true (List.all_eq_true.mp hall _ hmem)
    omega
  have hplain : ¬ isShortEscape high = true := by
    intro hescape
    have hsmall := isShortEscape_lt hescape
    omega
  constructor
  · rw [jsonPointBytes, if_neg hshort, if_neg (by omega), scalarUtf8Bytes, if_pos (by omega)]
  · rw [storedUnitBytes, if_neg hplain, if_neg (by omega), unicodeWidth, if_neg (by omega),
      if_neg (by omega), if_pos hhigh]

/-!
## Measures of texts
-/

def IsStorableText (text : ScriptString) : Prop :=
  isWellFormed text = true ∧ 0 ∉ text

instance (text : ScriptString) : Decidable (IsStorableText text) :=
  inferInstanceAs (Decidable (_ ∧ _))

def pointBytes (text : ScriptString) : Nat :=
  ((codePoints text).map jsonPointBytes).sum

theorem bytes_quoteText (text : ScriptString) :
    Values.utf8ByteLength (quoteText text) = 2 + pointBytes text := by
  rw [← jsonStringByteLength_none, JsonBoundaries.jsonStringByteLength]
  exact countPoints_none jsonPointBytes (codePoints text) 2

theorem jsonPointBytes_pos (point : CodePoint) : 0 < jsonPointBytes point := by
  cases point with
  | char c =>
      rw [jsonPointBytes, scalarUtf8Bytes]
      split
      · decide
      · split
        · decide
        · split
          · decide
          · split
            · decide
            · split
              · decide
              · decide
  | lone unit => exact Nat.succ_pos 5

theorem length_le_pointBytes (text : ScriptString) : text.length ≤ pointBytes text := by
  induction text using codePoints.induct with
  | case1 => exact Nat.le_refl 0
  | case2 unit => exact jsonPointBytes_pos (singleUnit unit)
  | case3 unit next rest hpair ih =>
      have hunits := Bool.and_eq_true_iff.mp hpair
      rw [pointBytes, codePoints, if_pos hpair, List.map_cons, List.sum_cons,
        (bytes_surrogatePair hunits.left hunits.right).left, List.length_cons, List.length_cons]
      show rest.length + 1 + 1 ≤ 4 + pointBytes rest
      omega
  | case4 unit next rest hpair ih =>
      have hpos := jsonPointBytes_pos (singleUnit unit)
      rw [pointBytes, codePoints, if_neg hpair, List.map_cons, List.sum_cons, List.length_cons]
      show (next :: rest).length + 1 ≤ jsonPointBytes (singleUnit unit) + pointBytes (next :: rest)
      omega

theorem not_surrogate_of_singleUnit {unit : UInt16} {rest : List CodePoint}
    (h : ((singleUnit unit :: rest).all fun point =>
      match point with
      | .char _ => true
      | .lone _ => false) = true) :
    isHighSurrogate unit = false ∧ isLowSurrogate unit = false := by
  rw [List.all_cons, Bool.and_eq_true] at h
  rw [← Bool.or_eq_false_iff]
  cases hsurrogate : (isHighSurrogate unit || isLowSurrogate unit) with
  | false => rfl
  | true =>
      have hfirst := h.left
      rw [singleUnit, if_pos hsurrogate] at hfirst
      cases hfirst

theorem unit_ne_zero_of_high {unit : UInt16} (h : isHighSurrogate unit = true) : unit ≠ 0 := by
  intro hzero
  rw [hzero] at h
  cases h

theorem unit_ne_zero_of_low {unit : UInt16} (h : isLowSurrogate unit = true) : unit ≠ 0 := by
  intro hzero
  rw [hzero] at h
  cases h

/-- A well-formed text is measured by its characters, unless it has a zero character or is
larger than an inline value may be. -/
theorem storedTextBytes_eq_some_iff {text : ScriptString} (hformed : isWellFormed text = true)
    {bytes : Nat} (hbytes : bytes ≤ storedInlineBytes) {total : Nat} :
    storedTextBytes bytes text = some total ↔
      0 ∉ text ∧ total = bytes + pointBytes text ∧ total ≤ storedInlineBytes := by
  induction text using codePoints.induct generalizing bytes with
  | case1 =>
      rw [storedTextBytes, Option.some_inj]
      constructor
      · intro h
        rw [← h]
        exact ⟨List.not_mem_nil, rfl, hbytes⟩
      · intro h
        exact h.right.left.symm
  | case2 unit =>
      rcases not_surrogate_of_singleUnit hformed with ⟨hhigh, hlow⟩
      have hunit := (bytes_singleUnit hhigh hlow).left
      have hpoints : pointBytes [unit] = storedUnitBytes unit := hunit
      rw [storedTextBytes, hpoints]
      split
      · next hrefused =>
        rw [Bool.or_eq_true, beq_iff_eq, decide_eq_true_eq] at hrefused
        constructor
        · intro h
          cases h
        · rintro ⟨hzero, rfl, hfits⟩
          rcases hrefused with hnull | hlarge
          · exact absurd (List.mem_singleton.mpr hnull.symm) hzero
          · omega
      · next hpassed =>
        rw [Bool.or_eq_true, beq_iff_eq, decide_eq_true_eq, not_or] at hpassed
        rw [Option.some_inj]
        constructor
        · intro h
          refine ⟨fun hmem => hpassed.left (List.mem_singleton.mp hmem).symm, h.symm, ?_⟩
          omega
        · intro h
          exact h.right.left.symm
  | case3 unit next rest hpair ih =>
      have hunits := Bool.and_eq_true_iff.mp hpair
      rcases bytes_surrogatePair hunits.left hunits.right with ⟨hpoint, hstored⟩
      have hrest : isWellFormed rest = true := by
        rw [isWellFormed, codePoints, if_pos hpair, List.all_cons, Bool.and_eq_true] at hformed
        exact hformed.right
      have hpoints : pointBytes (unit :: next :: rest) = 4 + pointBytes rest := by
        rw [pointBytes, codePoints, if_pos hpair, List.map_cons, List.sum_cons, hpoint]
        rfl
      have hmem : 0 ∉ unit :: next :: rest ↔ 0 ∉ rest := by
        rw [List.mem_cons, List.mem_cons, not_or, not_or]
        exact ⟨fun h => h.right.right, fun h => ⟨(unit_ne_zero_of_high hunits.left).symm,
          (unit_ne_zero_of_low hunits.right).symm, h⟩⟩
      rw [storedTextBytes, hstored, hpoints, hmem]
      split
      · next hrefused =>
        rw [Bool.or_eq_true, beq_iff_eq, decide_eq_true_eq] at hrefused
        constructor
        · intro h
          cases h
        · rintro ⟨_, rfl, hfits⟩
          rcases hrefused with hnull | hlarge
          · exact absurd hnull (unit_ne_zero_of_high hunits.left)
          · omega
      · next hpassed =>
        rw [Bool.or_eq_true, beq_iff_eq, decide_eq_true_eq, not_or] at hpassed
        rw [if_pos (by decide), ih hrest (by omega), Nat.add_assoc]
  | case4 unit next rest hpair ih =>
      rw [isWellFormed, codePoints, if_neg hpair] at hformed
      rcases not_surrogate_of_singleUnit hformed with ⟨hhigh, hlow⟩
      rcases bytes_singleUnit hhigh hlow with ⟨hunit, hfour⟩
      have hrest : isWellFormed (next :: rest) = true := by
        rw [List.all_cons, Bool.and_eq_true] at hformed
        exact hformed.right
      have hpoints : pointBytes (unit :: next :: rest) =
          storedUnitBytes unit + pointBytes (next :: rest) := by
        rw [pointBytes, codePoints, if_neg hpair, List.map_cons, List.sum_cons, hunit]
        rfl
      rw [storedTextBytes, hpoints]
      split
      · next hrefused =>
        rw [Bool.or_eq_true, beq_iff_eq, decide_eq_true_eq] at hrefused
        constructor
        · intro h
          cases h
        · rintro ⟨hzero, rfl, hfits⟩
          rcases hrefused with hnull | hlarge
          · exact absurd (List.mem_cons.mpr (Or.inl hnull.symm)) hzero
          · omega
      · next hpassed =>
        rw [Bool.or_eq_true, beq_iff_eq, decide_eq_true_eq, not_or] at hpassed
        have hmem : 0 ∉ unit :: next :: rest ↔ 0 ∉ next :: rest := by
          rw [@List.mem_cons _ unit _ 0, not_or]
          exact ⟨fun h => h.right, fun h => ⟨fun hzero => hpassed.left hzero.symm, h⟩⟩
        rw [if_neg (by rw [beq_iff_eq]; exact hfour), ih hrest (by omega), hmem, Nat.add_assoc]

theorem storedExecutionJsonStringBytes_eq_some_iff {text : ScriptString} {amount : Nat} :
    storedExecutionJsonStringBytes text = some amount ↔
      IsStorableText text ∧ amount = Values.utf8ByteLength (quoteText text) ∧
        amount ≤ storedInlineBytes := by
  have hlength := length_le_pointBytes text
  rw [storedExecutionJsonStringBytes, bytes_quoteText]
  split
  · next hrefused =>
    rw [Bool.or_eq_true, decide_eq_true_eq, Bool.not_eq_true'] at hrefused
    constructor
    · intro h
      cases h
    · rintro ⟨⟨hformed, _⟩, rfl, hfits⟩
      rcases hrefused with hlong | hmalformed
      · omega
      · rw [hformed] at hmalformed
        cases hmalformed
  · next hpassed =>
    rw [Bool.or_eq_true, decide_eq_true_eq, Bool.not_eq_true', not_or, Bool.not_eq_false] at hpassed
    rw [storedTextBytes_eq_some_iff hpassed.right (by decide)]
    constructor
    · intro h
      exact ⟨⟨hpassed.right, h.left⟩, h.right⟩
    · intro h
      exact ⟨h.left.right, h.right⟩

/-!
## Measures of values
-/

def storedTextCost (text : ScriptString) : Nat :=
  (storedExecutionJsonStringBytes text).getD (storedInlineBytes + 1)

/-- A cost is the bytes that a storable value is written with, as far as the limit tells. -/
def Costs (storable : Prop) (cost bytes : Nat) : Prop :=
  (storable ∧ cost = bytes) ∨
    (storedInlineBytes < cost ∧ (¬ storable ∨ storedInlineBytes < bytes))

theorem Costs.le_iff {storable : Prop} {cost bytes : Nat} (h : Costs storable cost bytes) :
    cost ≤ storedInlineBytes ↔ storable ∧ bytes ≤ storedInlineBytes := by
  rcases h with ⟨hstorable, rfl⟩ | ⟨hcost, hrefused⟩
  · exact ⟨fun hfits => ⟨hstorable, hfits⟩, fun hfits => hfits.right⟩
  · constructor
    · intro hfits
      omega
    · rintro ⟨hstorable, hfits⟩
      rcases hrefused with hnot | hlarge
      · exact absurd hstorable hnot
      · omega

theorem Costs.add {storable other : Prop} {cost bytes more others : Nat}
    (h : Costs storable cost bytes) (hmore : Costs other more others) :
    Costs (storable ∧ other) (cost + more) (bytes + others) := by
  rcases h with ⟨hstorable, rfl⟩ | ⟨hcost, hrefused⟩
  · rcases hmore with ⟨hother, rfl⟩ | ⟨hcost, hrefused⟩
    · exact Or.inl ⟨⟨hstorable, hother⟩, rfl⟩
    · apply Or.inr
      refine ⟨by omega, ?_⟩
      rcases hrefused with hnot | hlarge
      · exact Or.inl fun hboth => hnot hboth.right
      · exact Or.inr (by omega)
  · apply Or.inr
    refine ⟨by omega, ?_⟩
    rcases hrefused with hnot | hlarge
    · exact Or.inl fun hboth => hnot hboth.left
    · exact Or.inr (by omega)

theorem costs_amount (amount : Nat) : Costs True amount amount :=
  Or.inl ⟨trivial, rfl⟩

theorem Costs.congr {storable other : Prop} {cost bytes : Nat} (h : Costs storable cost bytes)
    (hsame : storable ↔ other) : Costs other cost bytes := by
  rcases h with ⟨hstorable, rfl⟩ | ⟨hcost, hrefused⟩
  · exact Or.inl ⟨hsame.mp hstorable, rfl⟩
  · rw [hsame] at hrefused
    exact Or.inr ⟨hcost, hrefused⟩

theorem costs_text (text : ScriptString) :
    Costs (IsStorableText text) (storedTextCost text) (Values.utf8ByteLength (quoteText text)) := by
  rw [storedTextCost]
  cases hbytes : storedExecutionJsonStringBytes text with
  | some amount =>
      have hamount := storedExecutionJsonStringBytes_eq_some_iff.mp hbytes
      exact Or.inl ⟨hamount.left, hamount.right.left⟩
  | none =>
      apply Or.inr
      refine ⟨Nat.lt_succ_self _, ?_⟩
      by_cases hstorable : IsStorableText text
      · apply Or.inr
        apply Nat.lt_of_not_le
        intro hfits
        rw [storedExecutionJsonStringBytes_eq_some_iff.mpr ⟨hstorable, rfl, hfits⟩] at hbytes
        cases hbytes
      · exact Or.inl hstorable

section

variable {Number : Type}

mutual

/-- Every text and every key of the value is stored. -/
def IsStorable : BoundedJsonValue Number -> Prop
  | .string text => IsStorableText text
  | .array items => AreStorableItems items
  | .object members => AreStorableMembers members
  | _ => True

def AreStorableItems : List (BoundedJsonValue Number) -> Prop
  | [] => True
  | item :: rest => IsStorable item ∧ AreStorableItems rest

def AreStorableMembers : List (ScriptString × BoundedJsonValue Number) -> Prop
  | [] => True
  | (key, value) :: rest => (IsStorableText key ∧ IsStorable value) ∧ AreStorableMembers rest

end

variable [ScriptNumber Number]

mutual

def storedBytes : BoundedJsonValue Number -> Nat
  | .string text => storedTextCost text
  | .array items => 2 + storedItemBytes items + (items.length - 1)
  | .object members => 2 + storedMemberBytes members + (members.length - 1)
  | scalar => textBytes scalar

def storedItemBytes : List (BoundedJsonValue Number) -> Nat
  | [] => 0
  | item :: rest => storedBytes item + storedItemBytes rest

def storedMemberBytes : List (ScriptString × BoundedJsonValue Number) -> Nat
  | [] => 0
  | (key, value) :: rest => storedTextCost key + 1 + storedBytes value + storedMemberBytes rest

end

mutual

theorem costs_value : forall value : BoundedJsonValue Number,
    Costs (IsStorable value) (storedBytes value) (textBytes value)
  | .null => costs_amount _
  | .bool value => costs_amount _
  | .number value => costs_amount _
  | .string text => costs_text text
  | .array items => by
      rw [textBytes_array]
      have hitems := ((costs_amount 2).add (costs_items items)).add
        (costs_amount (items.length - 1))
      exact hitems.congr ⟨fun h => h.left.right, fun h => ⟨⟨trivial, h⟩, trivial⟩⟩
  | .object members => by
      rw [textBytes_object]
      have hmembers := ((costs_amount 2).add (costs_members members)).add
        (costs_amount (members.length - 1))
      exact hmembers.congr ⟨fun h => h.left.right, fun h => ⟨⟨trivial, h⟩, trivial⟩⟩

theorem costs_items : forall items : List (BoundedJsonValue Number),
    Costs (AreStorableItems items) (storedItemBytes items) (items.map textBytes).sum
  | [] => costs_amount 0
  | item :: rest => by
      rw [List.map_cons, List.sum_cons]
      exact (costs_value item).add (costs_items rest)

theorem costs_members : forall members : List (ScriptString × BoundedJsonValue Number),
    Costs (AreStorableMembers members) (storedMemberBytes members) (members.map memberBytes).sum
  | [] => costs_amount 0
  | (key, value) :: rest => by
      rw [List.map_cons, List.sum_cons]
      have hmember := (((costs_text key).add (costs_amount 1)).add (costs_value value)).add
        (costs_members rest)
      exact hmember.congr ⟨fun h => ⟨⟨h.left.left.left, h.left.right⟩, h.right⟩,
        fun h => ⟨⟨⟨h.left.left, trivial⟩, h.left.right⟩, h.right⟩⟩

end

/-- A value fits when its texts are stored and its JSON text is within the limit. -/
theorem storedBytes_le_iff (value : BoundedJsonValue Number) :
    storedBytes value ≤ storedInlineBytes ↔
      IsStorable value ∧ textBytes value ≤ storedInlineBytes :=
  (costs_value value).le_iff

end

end StoredValues
end Pertexo
