import Pertexo.Values.Text

/-!
# Script strings

A script string is a sequence of 16-bit code units. A high surrogate followed
by a low one stands for one character; any other surrogate is on its own, and a
string with such a surrogate is not well formed.
-/

namespace Pertexo
namespace Values

abbrev ScriptString := List UInt16

def isHighSurrogate (unit : UInt16) : Bool :=
  decide (0xD800 ≤ unit.toNat) && decide (unit.toNat ≤ 0xDBFF)

def isLowSurrogate (unit : UInt16) : Bool :=
  decide (0xDC00 ≤ unit.toNat) && decide (unit.toNat ≤ 0xDFFF)

inductive CodePoint where
  | char (c : Char)
  | lone (unit : UInt16)
deriving DecidableEq, Repr

def surrogatePair (high low : UInt16) : Char :=
  Char.ofNat (0x10000 + (high.toNat - 0xD800) * 0x400 + (low.toNat - 0xDC00))

def singleUnit (unit : UInt16) : CodePoint :=
  if isHighSurrogate unit || isLowSurrogate unit then .lone unit
  else .char (Char.ofNat unit.toNat)

def codePoints : ScriptString -> List CodePoint
  | [] => []
  | [unit] => [singleUnit unit]
  | unit :: next :: rest =>
      if isHighSurrogate unit && isLowSurrogate next then
        .char (surrogatePair unit next) :: codePoints rest
      else singleUnit unit :: codePoints (next :: rest)

def isWellFormed (text : ScriptString) : Bool :=
  (codePoints text).all fun point =>
    match point with
    | .char _ => true
    | .lone _ => false

/-!
## Letters and white space
-/

/-- The unit under simple case folding, as far as it folds to an ASCII letter. -/
def foldUnit (unit : UInt16) : UInt16 :=
  if 0x41 <= unit && unit <= 0x5A then unit + 0x20
  else if unit == 0x17F then 0x73
  else if unit == 0x212A then 0x6B
  else unit

def isWhiteSpace (unit : UInt16) : Bool :=
  decide (9 ≤ unit.toNat ∧ unit.toNat ≤ 13) || decide (0x2000 ≤ unit.toNat ∧ unit.toNat ≤ 0x200A) ||
    [0x20, 0xA0, 0x1680, 0x2028, 0x2029, 0x202F, 0x205F, 0x3000, 0xFEFF].contains unit

def trim (text : ScriptString) : ScriptString :=
  ((text.dropWhile isWhiteSpace).reverse.dropWhile isWhiteSpace).reverse

/-!
# Code units of characters

The code points of a string are its code units read again: encoding them gives
the string back.
-/

def charUnits (c : Char) : ScriptString :=
  if c.toNat < 0x10000 then [UInt16.ofNat c.toNat]
  else
    [UInt16.ofNat (0xD800 + (c.toNat - 0x10000) / 0x400),
      UInt16.ofNat (0xDC00 + (c.toNat - 0x10000) % 0x400)]

def CodePoint.units : CodePoint -> ScriptString
  | .char c => charUnits c
  | .lone unit => [unit]

/-- The code units of a text without surrogates of its own. -/
def scriptString (text : String) : ScriptString :=
  text.toList.flatMap charUnits

theorem scriptString_ofList (text : List Char) :
    scriptString (String.ofList text) = text.flatMap charUnits := by
  rw [scriptString, String.toList_ofList]

theorem scriptString_append (left right : String) :
    scriptString (left ++ right) = scriptString left ++ scriptString right := by
  rw [scriptString, String.toList_append, List.flatMap_append]
  rfl

theorem toNat_charOfNat {n : Nat} (h : n < 0xD800 ∨ 0xDFFF < n ∧ n < 0x110000) :
    (Char.ofNat n).toNat = n := by
  have hvalid : n.isValidChar := h
  rw [Char.ofNat, dif_pos hvalid]
  rfl

theorem isHighSurrogate_iff {unit : UInt16} :
    isHighSurrogate unit = true ↔ 0xD800 ≤ unit.toNat ∧ unit.toNat ≤ 0xDBFF := by
  simp [isHighSurrogate]

theorem isLowSurrogate_iff {unit : UInt16} :
    isLowSurrogate unit = true ↔ 0xDC00 ≤ unit.toNat ∧ unit.toNat ≤ 0xDFFF := by
  simp [isLowSurrogate]

theorem charUnits_surrogatePair {high low : UInt16}
    (hhigh : isHighSurrogate high = true) (hlow : isLowSurrogate low = true) :
    charUnits (surrogatePair high low) = [high, low] := by
  rw [isHighSurrogate_iff] at hhigh
  rw [isLowSurrogate_iff] at hlow
  have hvalue : (surrogatePair high low).toNat =
      0x10000 + (high.toNat - 0xD800) * 0x400 + (low.toNat - 0xDC00) :=
    toNat_charOfNat (by omega)
  have hfirst : 0xD800 + ((surrogatePair high low).toNat - 0x10000) / 0x400 = high.toNat := by
    omega
  have hsecond : 0xDC00 + ((surrogatePair high low).toNat - 0x10000) % 0x400 = low.toNat := by
    omega
  rw [charUnits, if_neg (by omega), hfirst, hsecond, UInt16.ofNat_toNat, UInt16.ofNat_toNat]

theorem units_singleUnit (unit : UInt16) : (singleUnit unit).units = [unit] := by
  rw [singleUnit]
  split
  · rfl
  · next hsurrogate =>
    have hlt : unit.toNat < 0x10000 := unit.toNat_lt
    have hvalue : (Char.ofNat unit.toNat).toNat = unit.toNat := by
      apply toNat_charOfNat
      rw [Bool.or_eq_true, isHighSurrogate_iff, isLowSurrogate_iff] at hsurrogate
      omega
    rw [CodePoint.units, charUnits, if_pos (by omega), hvalue, UInt16.ofNat_toNat]

@[simp] theorem units_codePoints (text : ScriptString) :
    (codePoints text).flatMap CodePoint.units = text := by
  induction text using codePoints.induct with
  | case1 => rfl
  | case2 unit => simp [codePoints, units_singleUnit]
  | case3 unit next rest hpair ih =>
      rw [Bool.and_eq_true] at hpair
      simp [codePoints, hpair.left, hpair.right, ih, CodePoint.units,
        charUnits_surrogatePair hpair.left hpair.right]
  | case4 unit next rest hpair ih =>
      simp only [Bool.not_eq_true] at hpair
      simp [codePoints, hpair, ih, units_singleUnit]

end Values
end Pertexo
