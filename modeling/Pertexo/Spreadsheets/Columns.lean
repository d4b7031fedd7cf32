import Pertexo.Library.Numerals
import Pertexo.Library.Results
import Pertexo.Values.Encoding
import Pertexo.Values.ScriptStrings

/-!
# Columns and positions

## Failures of file input
-/

namespace Pertexo
namespace Spreadsheets

open Library Values

inductive FileInputFailure where
  | unsupported_spreadsheet
  | spreadsheet_too_large
  | value_size
  | sheet_header_row (row : Nat)
  | blank_header (column : Nat)
  | duplicate_header (column : Nat) (merged : Bool)
deriving DecidableEq, Repr

/-!
## Letters of columns

The writer spells a column in bijective base 26, and the reader reads the letters
back with a column's row behind them.
-/

def letterUnit (digit : Nat) : UInt16 :=
  UInt16.ofNat (65 + digit)

/-- 0 → A, 25 → Z, 26 → AA. -/
def columnLetters (index : Nat) : ScriptString :=
  (bijectiveDigits 26 (index + 1) (index + 1) []).map letterUnit

def isCapital (unit : UInt16) : Bool :=
  decide (65 ≤ unit.toNat ∧ unit.toNat ≤ 90)

def isDigitUnit (unit : UInt16) : Bool :=
  decide (48 ≤ unit.toNat ∧ unit.toNat ≤ 57)

/-- Only ASCII letters have an upper case here. -/
def toUpperCase (text : ScriptString) : ScriptString :=
  text.map fun unit =>
    if 97 ≤ unit.toNat ∧ unit.toNat ≤ 122 then UInt16.ofNat (unit.toNat - 32) else unit

def digitsValue (digits : ScriptString) : Nat :=
  digits.foldl (fun value unit => value * 10 + (unit.toNat - 48)) 0

structure CellPosition where
  column : Nat
  row : Nat
deriving DecidableEq, Repr

/-- Up to three letters, then up to seven digits that do not start with a zero. -/
def cellAt (reference : Option ScriptString) : Except FileInputFailure CellPosition :=
  let text := toUpperCase (reference.getD [])
  let letters := text.takeWhile isCapital
  let digits := text.dropWhile isCapital
  if 1 ≤ letters.length ∧ letters.length ≤ 3 ∧ 1 ≤ digits.length ∧ digits.length ≤ 7 ∧
      digits.all isDigitUnit ∧ digits.head? ≠ some 48 then
    .ok
      { column := letters.foldl (fun column letter => column * 26 + letter.toNat - 64) 0
        row := digitsValue digits }
  else .error .unsupported_spreadsheet

/-- Rows and cells may omit their position; written ones must ascend. -/
def position (written : Option Nat) (previous maximum : Nat) : Except FileInputFailure Nat :=
  let next := written.getD (previous + 1)
  if next ≤ previous ∨ maximum < next then .error .unsupported_spreadsheet else .ok next

theorem isCapital_letterUnit {digit : Nat} (h : digit < 26) :
    isCapital (letterUnit digit) = true ∧ (letterUnit digit).toNat = 65 + digit := by
  have hvalue : (letterUnit digit).toNat = 65 + digit := by
    rw [letterUnit, UInt16.toNat_ofNat', Nat.mod_eq_of_lt (by omega)]
  refine ⟨?_, hvalue⟩
  rw [isCapital, hvalue, decide_eq_true_eq]
  omega

theorem columnLetters_capital (index : Nat) :
    forall unit, unit ∈ columnLetters index -> isCapital unit = true := by
  intro unit hunit
  rcases List.mem_map.mp hunit with ⟨digit, hdigit, rfl⟩
  exact (isCapital_letterUnit (bijectiveDigits_lt (by decide) _ _ digit hdigit)).left

/-- The reader's sum over the letters is the value of the writer's digits. -/
theorem foldl_letters {digits : List Nat} (h : forall digit, digit ∈ digits -> digit < 26)
    (value : Nat) :
    (digits.map letterUnit).foldl (fun column letter => column * 26 + letter.toNat - 64) value =
      digits.foldl (fun value digit => value * 26 + digit + 1) value := by
  induction digits generalizing value with
  | nil => rfl
  | cons digit rest ih =>
      have hletter := (isCapital_letterUnit (h digit List.mem_cons_self)).right
      have hstep : value * 26 + (letterUnit digit).toNat - 64 = value * 26 + digit + 1 := by
        omega
      rw [List.map_cons, List.foldl_cons, List.foldl_cons, hstep]
      exact ih (fun other hother => h other (List.mem_cons_of_mem _ hother)) _

theorem column_of_letters (index : Nat) :
    (columnLetters index).foldl (fun column letter => column * 26 + letter.toNat - 64) 0 =
      index + 1 := by
  rw [columnLetters, foldl_letters (bijectiveDigits_lt (by decide) _ _)]
  exact bijectiveValue_digits (Nat.le_refl _)

theorem length_columnLetters {index : Nat} (h : index < 16384) :
    1 ≤ (columnLetters index).length ∧ (columnLetters index).length ≤ 3 := by
  constructor
  · rw [columnLetters, List.length_map, bijectiveDigits, if_neg (by omega),
      bijectiveDigits_append, List.length_append, List.length_singleton]
    omega
  · rw [columnLetters, List.length_map]
    apply length_bijectiveDigits_le (by decide)
    have hbound : bijectiveValue 26 (List.replicate (3 + 1) 0) = 18279 := by decide
    rw [hbound]
    omega

/-!
## Decimal numbers
-/

/-- The text a whole number is written as. -/
def decimal (n : Nat) : ScriptString :=
  scriptString (toString n)

def digitUnit (c : Char) : UInt16 :=
  UInt16.ofNat c.toNat

theorem charUnits_digit {c : Char} (h : c.isDigit = true) :
    charUnits c = [digitUnit c] ∧ isDigitUnit (digitUnit c) = true ∧
      (digitUnit c).toNat = c.toNat := by
  simp only [Char.isDigit, Bool.and_eq_true, decide_eq_true_eq, UInt32.le_iff_toNat_le,
    ge_iff_le] at h
  have hlow : 48 ≤ c.toNat := h.left
  have hhigh : c.toNat ≤ 57 := h.right
  have hvalue : (digitUnit c).toNat = c.toNat := by
    rw [digitUnit, UInt16.toNat_ofNat', Nat.mod_eq_of_lt (by omega)]
  refine ⟨?_, ?_, hvalue⟩
  · rw [charUnits, if_pos (by omega)]
    rfl
  · rw [isDigitUnit, hvalue, decide_eq_true_eq]
    exact ⟨hlow, hhigh⟩

theorem flatMap_charUnits_digits {digits : List Char}
    (h : forall c, c ∈ digits -> c.isDigit = true) :
    digits.flatMap charUnits = digits.map digitUnit := by
  induction digits with
  | nil => rfl
  | cons c rest ih =>
      rw [List.flatMap_cons, (charUnits_digit (h c List.mem_cons_self)).left,
        ih fun d hd => h d (List.mem_cons_of_mem _ hd)]
      rfl

theorem decimal_eq (n : Nat) : decimal n = (Nat.toDigits 10 n).map digitUnit := by
  rw [decimal, scriptString, toList_toString_nat]
  apply flatMap_charUnits_digits
  intro c hc
  exact Nat.isDigit_of_mem_toDigits (by decide) (by decide) hc

theorem isDigitUnit_decimal {n : Nat} : forall unit, unit ∈ decimal n ->
    isDigitUnit unit = true := by
  intro unit hunit
  rw [decimal_eq] at hunit
  rcases List.mem_map.mp hunit with ⟨c, hc, rfl⟩
  exact (charUnits_digit (Nat.isDigit_of_mem_toDigits (by decide) (by decide) hc)).right.left

theorem head_decimal {n : Nat} (h : 0 < n) : (decimal n).head? ≠ some 48 := by
  rcases leading_toDigits h with ⟨c, rest, hdigits, hlow, _⟩
  rw [decimal_eq, hdigits, List.map_cons, List.head?_cons]
  intro heq
  have hdigit : c.isDigit = true :=
    Nat.isDigit_of_mem_toDigits (by decide : 0 < 10) (by decide)
      (hdigits ▸ List.mem_cons_self : c ∈ Nat.toDigits 10 n)
  have hvalue := (charUnits_digit hdigit).right.right
  rw [Option.some.inj heq] at hvalue
  have hone : '1'.toNat ≤ c.toNat := hlow
  have hsame : (48 : UInt16).toNat = 48 ∧ '1'.toNat = 49 := by decide
  omega

theorem cellAt_reference {index row : Nat} (hindex : index < 16384) (hrow : 0 < row)
    (hfits : row < 10000000) :
    exists position, cellAt (some (columnLetters index ++ decimal row)) = .ok position ∧
      position.column = index + 1 := by
  have hcapital := columnLetters_capital index
  have hdigits := @isDigitUnit_decimal row
  have hnotCapital : forall unit, isDigitUnit unit = true -> isCapital unit = false := by
    intro unit hunit
    rw [isDigitUnit, decide_eq_true_eq] at hunit
    rw [isCapital, decide_eq_false_iff_not]
    omega
  have hupper : toUpperCase (columnLetters index ++ decimal row) =
      columnLetters index ++ decimal row := by
    have hsame : toUpperCase (columnLetters index ++ decimal row) =
        (columnLetters index ++ decimal row).map id := by
      apply List.map_congr_left
      intro unit hunit
      have hlow : unit.toNat < 97 := by
        rcases List.mem_append.mp hunit with hletter | hdigit
        · have hbounds := hcapital unit hletter
          rw [isCapital, decide_eq_true_eq] at hbounds
          omega
        · have hbounds := hdigits unit hdigit
          rw [isDigitUnit, decide_eq_true_eq] at hbounds
          omega
      rw [if_neg (by omega)]
      rfl
    rw [hsame, List.map_id]
  have hhead : (decimal row).takeWhile isCapital = [] ∧
      (decimal row).dropWhile isCapital = decimal row := by
    cases hdecimal : decimal row with
    | nil => exact ⟨rfl, rfl⟩
    | cons unit rest =>
        have hfalse := hnotCapital unit (hdigits unit (hdecimal ▸ List.mem_cons_self))
        simp [hfalse]
  have hletters : (columnLetters index ++ decimal row).takeWhile isCapital =
      columnLetters index := by
    rw [List.takeWhile_append_of_pos hcapital, hhead.left, List.append_nil]
  have hrest : (columnLetters index ++ decimal row).dropWhile isCapital = decimal row := by
    rw [List.dropWhile_append_of_pos hcapital, hhead.right]
  have hlength : 1 ≤ (decimal row).length ∧ (decimal row).length ≤ 7 := by
    rw [decimal_eq, List.length_map]
    constructor
    · exact Nat.length_toDigits_pos
    · exact (Nat.length_toDigits_le_iff (by decide) (by decide)).mpr hfits
  have hwidth := length_columnLetters hindex
  rw [cellAt, Option.getD_some, hupper]
  rw [hletters, hrest, if_pos]
  · exact ⟨_, rfl, column_of_letters index⟩
  · exact ⟨hwidth.left, hwidth.right, hlength.left, hlength.right,
      List.all_eq_true.mpr hdigits, head_decimal hrow⟩

end Spreadsheets
end Pertexo
