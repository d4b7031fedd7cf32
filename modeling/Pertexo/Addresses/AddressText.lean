import Pertexo.Library.Results
import Pertexo.Values.Text

/-!
# Text of addresses

## Parts of an address

`isIP` tells an IPv4 address in four decimal octets without leading zeros from an
IPv6 address in groups of hexadecimal digits, with one run of zero groups left
out, an IPv4 address in place of the last two groups, and a zone after it.
-/

namespace Pertexo
namespace Addresses

open Values

def isHexDigit (c : Char) : Bool :=
  (hexDigitValue c).isSome

def hexGroupValue (digits : List Char) : Nat :=
  digits.foldl (fun value c => value * 16 + (hexDigitValue c).getD 0) 0

def isHexGroup (text : List Char) : Bool :=
  decide (1 ≤ text.length ∧ text.length ≤ 4) && text.all isHexDigit

def isOctet (text : List Char) : Bool :=
  text.all Char.isDigit && decide (Nat.ofDigitChars 10 text 0 ≤ 255) &&
    decide (Nat.toDigits 10 (Nat.ofDigitChars 10 text 0) = text)

def isIPv4 (text : List Char) : Bool :=
  decide ((text.splitOn '.').length = 4) && (text.splitOn '.').all isOctet

def groupCount (quadAllowed : Bool) : List (List Char) -> Option Nat
  | [] => some 0
  | segment :: rest =>
      if isHexGroup segment then (groupCount quadAllowed rest).map (1 + ·)
      else if rest = [] ∧ quadAllowed ∧ isIPv4 segment then some 2
      else none

def halfCount (quadAllowed : Bool) (half : List Char) : Option Nat :=
  if half = [] then some 0 else groupCount quadAllowed (half.splitOn ':')

/-- The text split at each double colon, from the left. -/
def splitHalves : List Char -> List (List Char)
  | [] => [[]]
  | [c] => [[c]]
  | c :: d :: rest =>
      if c = ':' ∧ d = ':' then [] :: splitHalves rest
      else (splitHalves (d :: rest)).modifyHead (c :: ·)

def isIPv6Body (text : List Char) : Bool :=
  match splitHalves text with
  | [half] => halfCount true half = some 8
  | [left, right] =>
      match halfCount false left, halfCount true right with
      | some before, some after => decide (before + after ≤ 7)
      | _, _ => false
  | _ => false

def isZoneChar (c : Char) : Bool :=
  c.isAlphanum || c = '-' || c = '.' || c = ':'

def isIPv6 (text : List Char) : Bool :=
  isIPv6Body (text.takeWhile (· ≠ '%')) &&
    match text.dropWhile (· ≠ '%') with
    | [] => true
    | _ :: zone => decide (zone ≠ []) && zone.all isZoneChar

def isIP (text : List Char) : Nat :=
  if isIPv4 text then 4 else if isIPv6 text then 6 else 0

/-!
## Splitting and joining
-/

theorem splitHalves_ne_nil (text : List Char) : splitHalves text ≠ [] := by
  induction text using splitHalves.induct with
  | case1 => simp [splitHalves]
  | case2 c => simp [splitHalves]
  | case3 c d rest hcolon _ => simp [splitHalves, hcolon]
  | case4 c d rest hcolon ih =>
      rw [splitHalves, if_neg hcolon]
      cases hsplit : splitHalves (d :: rest) with
      | nil => exact absurd hsplit ih
      | cons head tail => simp

theorem intercalate_splitHalves (text : List Char) :
    [':', ':'].intercalate (splitHalves text) = text := by
  induction text using splitHalves.induct with
  | case1 => rfl
  | case2 c => rfl
  | case3 c d rest hcolon ih =>
      rw [splitHalves, if_pos hcolon]
      cases hsplit : splitHalves rest with
      | nil => exact absurd hsplit (splitHalves_ne_nil rest)
      | cons head tail =>
          rw [hsplit] at ih
          rw [hcolon.left, hcolon.right, List.intercalate_cons_cons, ih]
          rfl
  | case4 c d rest hcolon ih =>
      rw [splitHalves, if_neg hcolon]
      cases hsplit : splitHalves (d :: rest) with
      | nil => exact absurd hsplit (splitHalves_ne_nil _)
      | cons head tail =>
          rw [hsplit] at ih
          rw [List.modifyHead_cons]
          cases tail with
          | nil =>
              rw [List.intercalate_singleton] at ih ⊢
              rw [ih]
          | cons second tail =>
              rw [List.intercalate_cons_cons] at ih ⊢
              rw [List.cons_append, List.cons_append, ih]

end Addresses
end Pertexo
