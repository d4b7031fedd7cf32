import Mathlib.Algebra.GroupWithZero.Nat
import Mathlib.Data.List.TakeWhile
import Pertexo.Addresses.AddressText

/-!
# What addresses stand for

## Groups and quads

An address stands for a number: four octets for 32 bits, eight groups of
sixteen bits for 128. The spellings of one number are the texts it is denoted
by.
-/

namespace Pertexo
namespace Addresses

open Values

structure HexGroup where
  digits : List Char
  nonempty : digits ≠ []
  short : digits.length ≤ 4
  hex : forall c, c ∈ digits -> isHexDigit c = true

def HexGroup.value (group : HexGroup) : Nat :=
  hexGroupValue group.digits

structure DottedQuad where
  first : Fin 256
  second : Fin 256
  third : Fin 256
  fourth : Fin 256

namespace DottedQuad

def octets (quad : DottedQuad) : List (List Char) :=
  [Nat.toDigits 10 quad.first, Nat.toDigits 10 quad.second, Nat.toDigits 10 quad.third,
    Nat.toDigits 10 quad.fourth]

def text (quad : DottedQuad) : List Char :=
  ['.'].intercalate quad.octets

def value (quad : DottedQuad) : Nat :=
  quad.first * 2 ^ 24 + quad.second * 2 ^ 16 + quad.third * 2 ^ 8 + quad.fourth

def words (quad : DottedQuad) : List Nat :=
  [quad.first * 2 ^ 8 + quad.second, quad.third * 2 ^ 8 + quad.fourth]

end DottedQuad

/-- One side of a double colon, or a whole address without one. -/
structure Half where
  groups : List HexGroup
  quad : Option DottedQuad

namespace Half

def segments (half : Half) : List (List Char) :=
  half.groups.map HexGroup.digits ++ half.quad.toList.map DottedQuad.text

def text (half : Half) : List Char :=
  [':'].intercalate half.segments

def words (half : Half) : List Nat :=
  half.groups.map HexGroup.value ++ (half.quad.map DottedQuad.words).getD []

end Half

inductive DenotesIpv4 : List Char -> Nat -> Prop where
  | quad (quad : DottedQuad) : DenotesIpv4 quad.text quad.value

inductive DenotesIpv6 : List Char -> List Nat -> Prop where
  | full {half : Half} (h : half.words.length = 8) : DenotesIpv6 half.text half.words
  | compressed {left right : Half} (hleft : left.quad = none)
      (h : left.words.length + right.words.length ≤ 7) :
      DenotesIpv6 (left.text ++ ':' :: ':' :: right.text)
        (left.words ++ List.replicate (8 - (left.words.length + right.words.length)) 0 ++
          right.words)

/-!
## Words denoted
-/

theorem getD_hexDigitValue_lt (c : Char) : (hexDigitValue c).getD 0 < 16 := by
  cases hdigit : hexDigitValue c with
  | none => decide
  | some digit => exact (hexDigitValue_eq_some hdigit).right

theorem foldl_hex_lt (digits : List Char) (value : Nat) :
    digits.foldl (fun value c => value * 16 + (hexDigitValue c).getD 0) value <
      (value + 1) * 16 ^ digits.length := by
  induction digits generalizing value with
  | nil => simp
  | cons c rest ih =>
      have hc := getD_hexDigitValue_lt c
      have hrest := ih (value * 16 + (hexDigitValue c).getD 0)
      rw [List.foldl_cons, List.length_cons, Nat.pow_succ]
      apply Nat.lt_of_lt_of_le hrest
      calc (value * 16 + (hexDigitValue c).getD 0 + 1) * 16 ^ rest.length
          ≤ ((value + 1) * 16) * 16 ^ rest.length := Nat.mul_le_mul_right _ (by omega)
        _ = (value + 1) * (16 ^ rest.length * 16) := by
            rw [Nat.mul_assoc, Nat.mul_comm 16]

theorem HexGroup.value_lt (group : HexGroup) : group.value < 2 ^ 16 := by
  have hlt := foldl_hex_lt group.digits 0
  have hpow : 16 ^ group.digits.length ≤ 16 ^ 4 :=
    Nat.pow_le_pow_right (by decide) group.short
  rw [HexGroup.value, hexGroupValue]
  omega

theorem Half.words_lt (half : Half) : forall word, word ∈ half.words -> word < 2 ^ 16 := by
  intro word hword
  rw [Half.words, List.mem_append] at hword
  cases hword with
  | inl hgroup =>
      rcases List.mem_map.mp hgroup with ⟨group, _, rfl⟩
      exact group.value_lt
  | inr hquad =>
      cases hsome : half.quad with
      | none =>
          rw [hsome] at hquad
          cases hquad
      | some quad =>
          rw [hsome] at hquad
          simp only [Option.map_some, Option.getD_some, DottedQuad.words, List.mem_cons,
            List.not_mem_nil, or_false] at hquad
          omega

theorem DenotesIpv6.words {text : List Char} {words : List Nat} (h : DenotesIpv6 text words) :
    words.length = 8 ∧ forall word, word ∈ words -> word < 2 ^ 16 := by
  cases h with
  | @full half hlength => exact ⟨hlength, half.words_lt⟩
  | @compressed left right _ hlength =>
      constructor
      · rw [List.length_append, List.length_append, List.length_replicate]
        omega
      · intro word hword
        rw [List.mem_append, List.mem_append] at hword
        rcases hword with (hleft | hzero) | hright
        · exact left.words_lt word hleft
        · rw [(List.mem_replicate.mp hzero).right]
          decide
        · exact right.words_lt word hright

/-!
## Accepted texts denote
-/

theorem exists_octet {text : List Char} (h : isOctet text = true) :
    exists octet : Fin 256, Nat.toDigits 10 octet = text := by
  simp only [isOctet, Bool.and_eq_true, decide_eq_true_eq] at h
  exact ⟨⟨Nat.ofDigitChars 10 text 0, by omega⟩, h.right⟩

theorem exists_quad {text : List Char} (h : isIPv4 text = true) :
    exists quad : DottedQuad, quad.text = text := by
  rw [isIPv4, Bool.and_eq_true, decide_eq_true_eq, List.all_eq_true] at h
  have hjoin : ['.'].intercalate (text.splitOn '.') = text := List.intercalate_splitOn '.'
  generalize text.splitOn '.' = octets at h hjoin
  rcases h with ⟨hlength, hoctets⟩
  match octets, hlength with
  | [a, b, c, d], _ =>
      rcases exists_octet (hoctets a (by simp)) with ⟨first, hfirst⟩
      rcases exists_octet (hoctets b (by simp)) with ⟨second, hsecond⟩
      rcases exists_octet (hoctets c (by simp)) with ⟨third, hthird⟩
      rcases exists_octet (hoctets d (by simp)) with ⟨fourth, hfourth⟩
      refine ⟨⟨first, second, third, fourth⟩, ?_⟩
      rw [DottedQuad.text, DottedQuad.octets, hfirst, hsecond, hthird, hfourth, hjoin]

theorem exists_group {text : List Char} (h : isHexGroup text = true) :
    exists group : HexGroup, group.digits = text := by
  rw [isHexGroup, Bool.and_eq_true, decide_eq_true_eq, List.all_eq_true] at h
  refine ⟨⟨text, ?_, h.left.right, h.right⟩, rfl⟩
  intro hnil
  have hlength := h.left.left
  rw [hnil] at hlength
  exact absurd hlength (by decide)

theorem exists_segments {quadAllowed : Bool} {segments : List (List Char)} {n : Nat}
    (h : groupCount quadAllowed segments = some n) :
    exists half : Half, half.segments = segments ∧ half.words.length = n ∧
      (quadAllowed = false -> half.quad = none) := by
  induction segments generalizing n with
  | nil =>
      cases h
      exact ⟨⟨[], none⟩, rfl, rfl, fun _ => rfl⟩
  | cons segment rest ih =>
      rw [groupCount] at h
      split at h
      · rename_i hgroup
        rcases Option.map_eq_some_iff.mp h with ⟨m, hm, rfl⟩
        rcases ih hm with ⟨half, hsegments, hwords, hquad⟩
        rcases exists_group hgroup with ⟨group, hdigits⟩
        refine ⟨⟨group :: half.groups, half.quad⟩, ?_, ?_, hquad⟩
        · rw [← hsegments, ← hdigits]
          rfl
        · rw [← hwords, Half.words, Half.words]
          simp only [List.map_cons, List.cons_append, List.length_cons]
          omega
      · split at h
        · rename_i hlast
          rcases exists_quad hlast.right.right with ⟨quad, htext⟩
          cases h
          refine ⟨⟨[], some quad⟩, ?_, rfl, ?_⟩
          · rw [hlast.left, ← htext]
            rfl
          · intro hnot
            rw [hnot] at hlast
            cases hlast.right.left
        · cases h

theorem exists_half {quadAllowed : Bool} {text : List Char} {n : Nat}
    (h : halfCount quadAllowed text = some n) :
    exists half : Half, half.text = text ∧ half.words.length = n ∧
      (quadAllowed = false -> half.quad = none) := by
  rw [halfCount] at h
  split at h
  · rename_i hnil
    cases h
    exact ⟨⟨[], none⟩, hnil.symm, rfl, fun _ => rfl⟩
  · rcases exists_segments h with ⟨half, hsegments, hrest⟩
    refine ⟨half, ?_, hrest⟩
    rw [Half.text, hsegments, List.intercalate_splitOn]

theorem denotes_of_isIPv6Body {text : List Char} (h : isIPv6Body text = true) :
    exists words, DenotesIpv6 text words := by
  have hjoin := intercalate_splitHalves text
  rw [isIPv6Body] at h
  split at h
  · rename_i half hsplit
    rw [hsplit, List.intercalate_singleton] at hjoin
    rw [decide_eq_true_eq, hjoin] at h
    rcases exists_half h with ⟨whole, htext, hwords, _⟩
    rw [← htext]
    exact ⟨_, DenotesIpv6.full hwords⟩
  · rename_i left right hsplit
    split at h
    · rename_i before after hbefore hafter
      rcases exists_half hbefore with ⟨leftHalf, hleft, hleftWords, hquad⟩
      rcases exists_half hafter with ⟨rightHalf, hright, hrightWords, _⟩
      rw [hsplit, List.intercalate_cons_cons, List.intercalate_singleton, ← hleft, ← hright,
        List.append_assoc] at hjoin
      rw [← hjoin]
      refine ⟨_, DenotesIpv6.compressed (hquad rfl) ?_⟩
      rw [hleftWords, hrightWords]
      simpa using h
    · cases h
  · cases h

theorem denotes_of_isIP_six {text : List Char} (h : isIP text = 6) (hzone : '%' ∉ text) :
    exists words, DenotesIpv6 text words := by
  rw [isIP] at h
  split at h
  · cases h
  · split at h
    · rename_i hsix
      rw [isIPv6, Bool.and_eq_true] at hsix
      have hall : text.takeWhile (· ≠ '%') = text := by
        rw [List.takeWhile_eq_self_iff]
        intro c hc
        have hne : c ≠ '%' := fun heq => hzone (heq ▸ hc)
        simpa using hne
      rw [hall] at hsix
      exact denotes_of_isIPv6Body hsix.left
    · cases h

theorem denotes_of_isIP_four {text : List Char} (h : isIP text = 4) :
    exists value, DenotesIpv4 text value := by
  rw [isIP] at h
  split at h
  · rename_i hfour
    rcases exists_quad hfour with ⟨quad, rfl⟩
    exact ⟨_, DenotesIpv4.quad quad⟩
  · split at h
    · cases h
    · cases h

end Addresses
end Pertexo
