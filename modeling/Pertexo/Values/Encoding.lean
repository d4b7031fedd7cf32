import Mathlib.Data.List.Basic
import Pertexo.Values.Text

/-!
# Reading encoded text back

## Percent-encoded bytes

Percent encoding loses nothing: reading the escapes back gives the bytes of the
text, and the bytes give the text.
-/

namespace Pertexo
namespace Values

/-- The value of a digit; a character that is none counts as nothing. -/
def hexValue (c : Char) : Nat :=
  (hexDigitValue c).getD 0

def decodedBytes : List Char -> List UInt8
  | '%' :: high :: low :: rest =>
      UInt8.ofNat (hexValue high * 16 + hexValue low) :: decodedBytes rest
  | c :: rest => UInt8.ofNat c.toNat :: decodedBytes rest
  | [] => []

theorem hexValue_hexDigit :
    forall digit : Fin 16, hexValue (hexDigit digit) = digit := by
  decide

theorem hexValue_hexDigit_of_lt {n : Nat} (h : n < 16) : hexValue (hexDigit n) = n :=
  hexValue_hexDigit ⟨n, h⟩

theorem decodedBytes_percentByte (byte : UInt8) (rest : List Char) :
    decodedBytes (percentByte byte ++ rest) = byte :: decodedBytes rest := by
  have hlt : byte.toNat < 256 := byte.toNat_lt
  have hhigh : hexValue (hexDigit (byte.toNat / 16)) = byte.toNat / 16 :=
    hexValue_hexDigit_of_lt (by omega)
  have hlow : hexValue (hexDigit (byte.toNat % 16)) = byte.toNat % 16 :=
    hexValue_hexDigit_of_lt (by omega)
  have hbyte : byte.toNat / 16 * 16 + byte.toNat % 16 = byte.toNat := by
    omega
  change UInt8.ofNat (hexValue (hexDigit (byte.toNat / 16)) * 16 +
    hexValue (hexDigit (byte.toNat % 16))) :: decodedBytes rest = _
  rw [hhigh, hlow, hbyte, UInt8.ofNat_toNat]

theorem decodedBytes_percentBytes (bytes : List UInt8) (rest : List Char) :
    decodedBytes (bytes.flatMap percentByte ++ rest) = bytes ++ decodedBytes rest := by
  induction bytes with
  | nil => rfl
  | cons byte bytes ih =>
      rw [List.flatMap_cons, List.append_assoc, decodedBytes_percentByte, ih]
      rfl

theorem isUnreserved_spec {c : Char} (h : isUnreserved c = true) :
    c ≠ '%' ∧ c ≠ '|' ∧ c.toNat < 128 := by
  rw [isUnreserved, Bool.or_eq_true] at h
  rcases h with halnum | hmark
  · have hbound : c.toNat < 123 := by
      have hclass : ((decide (c.val ≥ 'A'.val ∧ c.val ≤ 'Z'.val) ||
          (decide (c.val ≥ 'a'.val) && decide (c.val ≤ 'z'.val))) ||
            (decide (c.val ≥ '0'.val) && decide (c.val ≤ '9'.val))) = true := halnum
      simp only [Bool.or_eq_true, Bool.and_eq_true, decide_eq_true_eq, UInt32.le_iff_toNat_le,
        ge_iff_le] at hclass
      have hz : 'Z'.val.toNat = 90 := rfl
      have hlowZ : 'z'.val.toNat = 122 := rfl
      have hnine : '9'.val.toNat = 57 := rfl
      change c.val.toNat < 123
      omega
    refine ⟨?_, ?_, by omega⟩
    · intro hc
      rw [hc] at halnum
      exact absurd halnum (by decide)
    · intro hc
      rw [hc] at halnum
      exact absurd halnum (by decide)
  · have hmem : c ∈ "-_.!~*'()".toList := by
      simpa using hmark
    have hall : "-_.!~*'()".toList.all
        (fun d => decide (d ≠ '%' ∧ d ≠ '|' ∧ d.toNat < 128)) = true := by
      decide
    exact of_decide_eq_true (List.all_eq_true.mp hall c hmem)

theorem utf8EncodeChar_of_lt {c : Char} (h : c.toNat < 128) :
    String.utf8EncodeChar c = [UInt8.ofNat c.toNat] := by
  have hle : c.val.toNat ≤ 127 := by
    change c.toNat ≤ 127
    omega
  unfold String.utf8EncodeChar
  exact if_pos hle

theorem decodedBytes_cons_of_ne {c : Char} (h : c ≠ '%') (rest : List Char) :
    decodedBytes (c :: rest) = UInt8.ofNat c.toNat :: decodedBytes rest := by
  rw [decodedBytes]
  intro _ _ _ hc
  exact absurd hc h

def encodeURIChar (c : Char) : List Char :=
  if isUnreserved c then [c] else (String.utf8EncodeChar c).flatMap percentByte

theorem decodedBytes_encodeURIChar (c : Char) (rest : List Char) :
    decodedBytes (encodeURIChar c ++ rest) = String.utf8EncodeChar c ++ decodedBytes rest := by
  cases hc : isUnreserved c with
  | true =>
      rcases isUnreserved_spec hc with ⟨hpercent, _, hlt⟩
      rw [encodeURIChar, if_pos hc, utf8EncodeChar_of_lt hlt]
      exact decodedBytes_cons_of_ne hpercent rest
  | false =>
      rw [encodeURIChar, if_neg (by simp [hc])]
      exact decodedBytes_percentBytes _ rest

theorem decodedBytes_flatMap (chars : List Char) :
    decodedBytes (chars.flatMap encodeURIChar) = chars.flatMap String.utf8EncodeChar := by
  induction chars with
  | nil => rfl
  | cons c rest ih =>
      rw [List.flatMap_cons, decodedBytes_encodeURIChar, ih, List.flatMap_cons]

theorem toList_encodeURIComponent (text : String) :
    (encodeURIComponent text).toList = text.toList.flatMap encodeURIChar := by
  rw [encodeURIComponent, String.toList_ofList]
  rfl

theorem utf8EncodeChars_injective {left right : List Char}
    (h : left.flatMap String.utf8EncodeChar = right.flatMap String.utf8EncodeChar) :
    left = right := by
  have hencode : left.utf8Encode = right.utf8Encode := by
    rw [List.utf8Encode, List.utf8Encode, h]
  have hdecode : left.utf8Encode.utf8Decode? = right.utf8Encode.utf8Decode? := by
    rw [hencode]
  simpa using hdecode

theorem encodeURIComponent_injective {left right : String}
    (h : encodeURIComponent left = encodeURIComponent right) : left = right := by
  have hchars : left.toList.flatMap encodeURIChar = right.toList.flatMap encodeURIChar := by
    rw [← toList_encodeURIComponent, ← toList_encodeURIComponent, h]
  have hbytes := congrArg decodedBytes hchars
  rw [decodedBytes_flatMap, decodedBytes_flatMap] at hbytes
  exact String.toList_injective (utf8EncodeChars_injective hbytes)

theorem bar_not_mem_percentByte (byte : UInt8) : '|' ∉ percentByte byte := by
  have hdigit : forall digit : Fin 16, '|' ≠ hexDigit digit := by
    decide
  have hlt : byte.toNat < 256 := byte.toNat_lt
  have hhigh := hdigit ⟨byte.toNat / 16, by omega⟩
  have hlow := hdigit ⟨byte.toNat % 16, by omega⟩
  simp only [percentByte, List.mem_cons, List.not_mem_nil, or_false, not_or]
  exact ⟨by decide, hhigh, hlow⟩

theorem bar_not_mem_encodeURIComponent (text : String) :
    '|' ∉ (encodeURIComponent text).toList := by
  rw [toList_encodeURIComponent]
  intro hmem
  rcases List.mem_flatMap.mp hmem with ⟨c, _, hc⟩
  cases hreserved : isUnreserved c with
  | true =>
      rw [encodeURIChar, if_pos hreserved, List.mem_singleton] at hc
      exact (isUnreserved_spec hreserved).right.left hc.symm
  | false =>
      rw [encodeURIChar, if_neg (by simp [hreserved])] at hc
      rcases List.mem_flatMap.mp hc with ⟨byte, _, hbyte⟩
      exact bar_not_mem_percentByte byte hbyte

/-!
## Separated text

A text that does not contain the separator is read back up to the first one.
-/

theorem eq_of_append_separator {α : Type u} {separator : α} :
    forall {left right leftRest rightRest : List α},
      separator ∉ left -> separator ∉ right ->
      left ++ separator :: leftRest = right ++ separator :: rightRest ->
      left = right ∧ leftRest = rightRest
  | [], [], _, _, _, _, h => by
      injection h with _ hrest
      exact ⟨rfl, hrest⟩
  | [], d :: right, _, _, _, hright, h => by
      injection h with hhead _
      exact absurd (hhead ▸ List.mem_cons_self ..) hright
  | c :: left, [], _, _, hleft, _, h => by
      injection h with hhead _
      exact absurd (hhead ▸ List.mem_cons_self ..) hleft
  | c :: left, d :: right, _, _, hleft, hright, h => by
      injection h with hhead htail
      have hleft' : separator ∉ left := fun hmem => hleft (List.mem_cons_of_mem _ hmem)
      have hright' : separator ∉ right := fun hmem => hright (List.mem_cons_of_mem _ hmem)
      rcases eq_of_append_separator hleft' hright' htail with ⟨rfl, hrest⟩
      exact ⟨hhead ▸ rfl, hrest⟩

/-!
## Decimal numbers
-/

theorem toList_toString_nat (n : Nat) : (toString n).toList = Nat.toDigits 10 n := by
  change n.repr.toList = _
  exact Nat.toList_repr

theorem leading_toDigits {n : Nat} (h : 0 < n) :
    exists c rest, Nat.toDigits 10 n = c :: rest ∧ '1' ≤ c ∧ c ≤ '9' := by
  induction n using Nat.strong_induction_on with
  | _ n ih =>
      by_cases hsmall : n < 10
      · have hdigits : forall digit : Fin 10, 0 < digit.val ->
            '1' ≤ digit.val.digitChar ∧ digit.val.digitChar ≤ '9' := by
          decide
        refine ⟨n.digitChar, [], Nat.toDigits_of_lt_base hsmall, hdigits ⟨n, hsmall⟩ h⟩
      · rcases ih (n / 10) (by omega) (by omega) with ⟨c, rest, hrest, hbounds⟩
        refine ⟨c, rest ++ [(n % 10).digitChar], ?_, hbounds⟩
        rw [Nat.toDigits_of_base_le (by decide) (by omega), hrest]
        rfl

theorem toString_nat_injective {m n : Nat} (h : toString m = toString n) : m = n := by
  have hdigits : Nat.toDigits 10 m = Nat.toDigits 10 n := by
    rw [← toList_toString_nat, ← toList_toString_nat, h]
  have hvalues := congrArg (fun digits => Nat.ofDigitChars 10 digits 0) hdigits
  simpa using hvalues

theorem slash_not_mem_toString_nat (n : Nat) : '/' ∉ (toString n).toList := by
  rw [toList_toString_nat]
  intro hmem
  have hdigit := Nat.isDigit_of_mem_toDigits (by decide) (by decide) hmem
  exact absurd hdigit (by decide)

end Values
end Pertexo
