import Pertexo.Addresses.AddressForms
import Pertexo.Addresses.AddressPolicy

/-!
# Parsing of addresses

## Octets

The octets of a quad are read back and packed into one number.
-/

namespace Pertexo
namespace Addresses

open Library
open Values

theorem toNat_toInt32 {n : Nat} (h : n < 2 ^ 32) : (toInt32 n).toNat = n := by
  rw [toInt32, BitVec.toNat_ofNat, Nat.mod_eq_of_lt h]

theorem packed_octets (a b c d : Fin 256) :
    (shiftLeft (toInt32 a) 24 ||| shiftLeft (toInt32 b) 16 ||| shiftLeft (toInt32 c) 8 |||
      toInt32 d).toNat = a.val * 2 ^ 24 + b.val * 2 ^ 16 + c.val * 2 ^ 8 + d.val := by
  have hshift {x : Fin 256} {count : Nat} (hcount : count ≤ 24) :
      (shiftLeft (toInt32 x.val) count).toNat = 2 ^ count * x.val := by
    have hpow : 2 ^ count ≤ 2 ^ 24 := Nat.pow_le_pow_right (by decide) hcount
    have hlt : 2 ^ count * x.val < 2 ^ 32 := by
      have hx : x.val ≤ 255 := by omega
      calc 2 ^ count * x.val ≤ 2 ^ 24 * 255 := Nat.mul_le_mul hpow hx
        _ < 2 ^ 32 := by decide
    rw [shiftLeft, Nat.mod_eq_of_lt (by omega), BitVec.toNat_shiftLeft, toNat_toInt32 (by omega),
      Nat.shiftLeft_eq, Nat.mul_comm, Nat.mod_eq_of_lt hlt]
  rw [BitVec.toNat_or, BitVec.toNat_or, BitVec.toNat_or, hshift (by decide), hshift (by decide),
    hshift (by decide), toNat_toInt32 (by omega)]
  have hsecond : 2 ^ 24 * a.val ||| 2 ^ 16 * b.val = 2 ^ 16 * (2 ^ 8 * a.val + b.val) := by
    rw [← Nat.two_pow_add_eq_or_of_lt (by omega)]
    omega
  have hthird : 2 ^ 16 * (2 ^ 8 * a.val + b.val) ||| 2 ^ 8 * c.val =
      2 ^ 8 * (2 ^ 16 * a.val + 2 ^ 8 * b.val + c.val) := by
    rw [← Nat.two_pow_add_eq_or_of_lt (by omega)]
    omega
  rw [hsecond, hthird, ← Nat.two_pow_add_eq_or_of_lt (by omega)]
  omega

theorem digits_of_octet (octet : Fin 256) :
    numberOf (Nat.toDigits 10 octet) = some octet.val := by
  have hdigits : (Nat.toDigits 10 octet.val).all Char.isDigit = true := by
    rw [List.all_eq_true]
    intro c hc
    exact Nat.isDigit_of_mem_toDigits (by decide) (by decide) hc
  rw [numberOf, if_pos hdigits, Nat.ofDigitChars_ten_toDigits]

theorem dot_not_mem_toDigits (n : Nat) : '.' ∉ Nat.toDigits 10 n := by
  intro hmem
  have hdigit := Nat.isDigit_of_mem_toDigits (by decide) (by decide) hmem
  exact absurd hdigit (by decide)

theorem splitOn_quad (quad : DottedQuad) : quad.text.splitOn '.' = quad.octets := by
  rw [DottedQuad.text, List.splitOn_intercalate]
  · intro octet hoctet
    simp only [DottedQuad.octets, List.mem_cons, List.not_mem_nil, or_false] at hoctet
    rcases hoctet with rfl | rfl | rfl | rfl <;> exact dot_not_mem_toDigits _
  · simp [DottedQuad.octets]

theorem ipv4Number_text (quad : DottedQuad) : ipv4Number quad.text = .ok quad.value := by
  have hoctets : (quad.text.splitOn '.').map numberOf =
      [some quad.first.val, some quad.second.val, some quad.third.val, some quad.fourth.val] := by
    rw [splitOn_quad]
    simp only [DottedQuad.octets, List.map_cons, List.map_nil, digits_of_octet]
  have hbounds (octet : Fin 256) : ¬ 255 < octet.val := by omega
  have hpacked := packed_octets quad.first quad.second quad.third quad.fourth
  rw [ipv4Number, hoctets]
  dsimp only
  rw [if_neg (by simp [hbounds])]
  exact congrArg Except.ok hpacked

theorem value_lt (quad : DottedQuad) : quad.value < 2 ^ 32 := by
  rw [DottedQuad.value]
  omega

theorem highWord_eq {value : Nat} (h : value < 2 ^ 32) : highWord value = value / 2 ^ 16 := by
  have hmask : (toInt32 0xffff).toNat = 2 ^ 16 - 1 := by decide
  rw [highWord, BitVec.toNat_and, BitVec.toNat_ushiftRight, toNat_toInt32 h, hmask,
    Nat.and_two_pow_sub_one_eq_mod, Nat.shiftRight_eq_div_pow]
  omega

theorem lowWord_eq {value : Nat} (h : value < 2 ^ 32) : lowWord value = value % 2 ^ 16 := by
  have hmask : (toInt32 0xffff).toNat = 2 ^ 16 - 1 := by decide
  rw [lowWord, BitVec.toNat_and, toNat_toInt32 h, hmask, Nat.and_two_pow_sub_one_eq_mod]

theorem words_of_quad (quad : DottedQuad) :
    [highWord quad.value, lowWord quad.value] = quad.words := by
  rw [highWord_eq (value_lt quad), lowWord_eq (value_lt quad), DottedQuad.value, DottedQuad.words]
  congr 1
  · omega
  · congr 1
    omega

theorem ipv4Words_text (quad : DottedQuad) : ipv4Words quad.text = .ok quad.words := by
  rw [ipv4Words, ipv4Number_text, ← words_of_quad]
  rfl

/-!
## Digits of groups
-/

theorem toNat_lt_of_isHexDigit {c : Char} (h : isHexDigit c = true) : c.toNat < 128 := by
  rcases Option.isSome_iff_exists.mp h with ⟨digit, hdigit⟩
  exact (hexDigitValue_eq_some hdigit).left

/-- What a digit of a group becomes in lower case. -/
def KeepsDigit (c lowered : Char) : Prop :=
  (lowered.isDigit || decide ('a' ≤ lowered ∧ lowered ≤ 'f')) = true ∧
    hexDigitValue lowered = hexDigitValue c ∧ lowered ≠ '.' ∧ lowered ≠ ':' ∧ lowered ≠ '%'

instance (c lowered : Char) : Decidable (KeepsDigit c lowered) :=
  inferInstanceAs (Decidable (_ ∧ _))

theorem keepsDigit_toLower {c : Char} (h : isHexDigit c = true) : KeepsDigit c c.toLower := by
  have hall : forall n, n < 128 -> isHexDigit (Char.ofNat n) = true ->
      KeepsDigit (Char.ofNat n) (Char.ofNat n).toLower := by
    decide
  have hdigit := hall c.toNat (toNat_lt_of_isHexDigit h)
  rw [Char.ofNat_toNat] at hdigit
  exact hdigit h

def HexGroup.lowered (group : HexGroup) : List Char :=
  group.digits.map Char.toLower

theorem hexGroupValue_lowered (group : HexGroup) :
    hexGroupValue group.lowered = group.value := by
  rw [HexGroup.value, hexGroupValue, hexGroupValue, HexGroup.lowered, List.foldl_map]
  apply List.foldl_ext
  intro value c hc
  rw [(keepsDigit_toLower (group.hex c hc)).right.left]

theorem isIpv6Segment_lowered (group : HexGroup) : isIpv6Segment group.lowered = true := by
  have hpos := List.length_pos_of_ne_nil group.nonempty
  rw [isIpv6Segment, HexGroup.lowered, List.length_map, List.all_map, Bool.and_eq_true,
    decide_eq_true_eq, List.all_eq_true]
  constructor
  · exact ⟨hpos, group.short⟩
  · intro c hc
    exact (keepsDigit_toLower (group.hex c hc)).left

theorem not_mem_lowered (group : HexGroup) :
    '.' ∉ group.lowered ∧ ':' ∉ group.lowered ∧ '%' ∉ group.lowered := by
  have hkeeps : forall c, c ∈ group.lowered -> c ≠ '.' ∧ c ≠ ':' ∧ c ≠ '%' := by
    intro c hc
    rcases List.mem_map.mp hc with ⟨digit, hdigit, rfl⟩
    exact (keepsDigit_toLower (group.hex digit hdigit)).right.right
  exact ⟨fun h => (hkeeps _ h).left rfl, fun h => (hkeeps _ h).right.left rfl,
    fun h => (hkeeps _ h).right.right rfl⟩

/-!
## Characters of quads
-/

theorem mem_intercalate {separator : Char} {parts : List (List Char)} {c : Char}
    (h : c ∈ [separator].intercalate parts) :
    c = separator ∨ exists part, part ∈ parts ∧ c ∈ part := by
  induction parts with
  | nil => cases h
  | cons part rest ih =>
      cases rest with
      | nil =>
          rw [List.intercalate_singleton] at h
          exact Or.inr ⟨part, List.mem_cons_self, h⟩
      | cons next rest =>
          rw [List.intercalate_cons_cons, List.mem_append, List.mem_append,
            List.mem_singleton] at h
          rcases h with (hpart | hseparator) | hrest
          · exact Or.inr ⟨part, List.mem_cons_self, hpart⟩
          · exact Or.inl hseparator
          · cases ih hrest with
            | inl heq => exact Or.inl heq
            | inr hexists =>
                rcases hexists with ⟨other, hother, hc⟩
                exact Or.inr ⟨other, List.mem_cons_of_mem _ hother, hc⟩

theorem map_intercalate (f : Char -> Char) (separator : Char) (parts : List (List Char)) :
    ([separator].intercalate parts).map f =
      [f separator].intercalate (parts.map fun part => part.map f) := by
  induction parts with
  | nil => rfl
  | cons part rest ih =>
      cases rest with
      | nil => simp only [List.intercalate_singleton, List.map_cons, List.map_nil]
      | cons next rest =>
          rw [List.map_cons, List.map_cons, List.intercalate_cons_cons,
            List.intercalate_cons_cons, ← List.map_cons, ← ih]
          simp

theorem quad_char {quad : DottedQuad} {c : Char} (h : c ∈ quad.text) :
    c = '.' ∨ c.isDigit = true := by
  cases mem_intercalate h with
  | inl heq => exact Or.inl heq
  | inr hexists =>
      rcases hexists with ⟨octet, hoctet, hc⟩
      simp only [DottedQuad.octets, List.mem_cons, List.not_mem_nil, or_false] at hoctet
      right
      rcases hoctet with rfl | rfl | rfl | rfl <;>
        exact Nat.isDigit_of_mem_toDigits (by decide) (by decide) hc

theorem toLower_of_isDigit {c : Char} (h : c.isDigit = true) : c.toLower = c := by
  have hall : forall n, n < 128 -> (Char.ofNat n).isDigit = true ->
      (Char.ofNat n).toLower = Char.ofNat n := by
    decide
  have hhex : isHexDigit c = true := by
    simp [isHexDigit, hexDigitValue, h]
  have hdigit := hall c.toNat (toNat_lt_of_isHexDigit hhex)
  rw [Char.ofNat_toNat] at hdigit
  exact hdigit h

theorem lowered_quad (quad : DottedQuad) : quad.text.map Char.toLower = quad.text := by
  have hsame : quad.text.map Char.toLower = quad.text.map id := by
    apply List.map_congr_left
    intro c hc
    cases quad_char hc with
    | inl hdot =>
        rw [hdot]
        rfl
    | inr hdigit => exact toLower_of_isDigit hdigit
  rw [hsame, List.map_id]

theorem dot_mem_quad (quad : DottedQuad) : '.' ∈ quad.text := by
  rw [DottedQuad.text, DottedQuad.octets, List.intercalate_cons_cons]
  simp

/-!
## Segments of a half
-/

namespace Half

def lowered (half : Half) : List (List Char) :=
  half.groups.map HexGroup.lowered ++ half.quad.toList.map DottedQuad.text

theorem map_toLower_text (half : Half) :
    half.text.map Char.toLower = [':'].intercalate half.lowered := by
  rw [text, map_intercalate, show ':'.toLower = ':' from rfl, segments, lowered,
    List.map_append, List.map_map, List.map_map]
  congr 2
  apply List.map_congr_left
  intro quad _
  exact lowered_quad quad

theorem mem_lowered {half : Half} {segment : List Char} (h : segment ∈ half.lowered) :
    segment ≠ [] ∧ ':' ∉ segment ∧ '%' ∉ segment := by
  rw [lowered, List.mem_append] at h
  cases h with
  | inl hgroup =>
      rcases List.mem_map.mp hgroup with ⟨group, _, rfl⟩
      refine ⟨?_, (not_mem_lowered group).right.left, (not_mem_lowered group).right.right⟩
      intro hnil
      exact group.nonempty (List.map_eq_nil_iff.mp hnil)
  | inr hquad =>
      rcases List.mem_map.mp hquad with ⟨quad, _, rfl⟩
      refine ⟨List.ne_nil_of_mem (dot_mem_quad quad), ?_, ?_⟩
      · intro hmem
        cases quad_char hmem with
        | inl heq => cases heq
        | inr hdigit => exact absurd hdigit (by decide)
      · intro hmem
        cases quad_char hmem with
        | inl heq => cases heq
        | inr hdigit => exact absurd hdigit (by decide)

theorem parseSegments_lowered (groups : List HexGroup) (quad : Option DottedQuad) :
    parseSegments (Half.lowered ⟨groups, quad⟩) = .ok (Half.words ⟨groups, quad⟩) := by
  induction groups with
  | nil =>
      cases quad with
      | none => rfl
      | some quad =>
          show parseSegments [quad.text] = .ok quad.words
          rw [parseSegments, if_pos (dot_mem_quad quad), if_neg (by simp), ipv4Number_text,
            ← words_of_quad]
          rfl
  | cons group rest ih =>
      show parseSegments (group.lowered :: Half.lowered ⟨rest, quad⟩) = _
      have hdot := (not_mem_lowered group).left
      rw [parseSegments, if_neg hdot, if_neg (by simp [isIpv6Segment_lowered group]), ih,
        hexGroupValue_lowered]
      rfl

theorem parseIpv6Half_lowered (half : Half) :
    parseIpv6Half ([':'].intercalate half.lowered) = .ok half.words := by
  rw [parseIpv6Half]
  cases hlowered : half.lowered with
  | nil =>
      have hparsed := parseSegments_lowered half.groups half.quad
      rw [hlowered] at hparsed
      exact hparsed
  | cons segment rest =>
      have hsegment := mem_lowered (hlowered ▸ List.mem_cons_self : segment ∈ half.lowered)
      have hne : [':'].intercalate (segment :: rest) ≠ [] := by
        intro hnil
        apply hsegment.left
        cases rest with
        | nil =>
            rw [List.intercalate_singleton] at hnil
            exact hnil
        | cons next rest =>
            rw [List.intercalate_cons_cons, List.append_assoc] at hnil
            exact (List.append_eq_nil_iff.mp hnil).left
      rw [if_neg hne, List.splitOn_intercalate]
      · rw [← hlowered]
        exact parseSegments_lowered half.groups half.quad
      · intro other hother
        exact (mem_lowered (hlowered ▸ hother)).right.left
      · simp

end Half

/-!
## Halves of an address
-/

theorem splitHalves_cons {c : Char} (hc : c ≠ ':') (rest : List Char) :
    splitHalves (c :: rest) = (splitHalves rest).modifyHead (c :: ·) := by
  cases rest with
  | nil => rfl
  | cons d rest => rw [splitHalves, if_neg fun hcolon => hc hcolon.left]

theorem splitHalves_append {segment : List Char} (hsegment : ':' ∉ segment)
    (rest : List Char) :
    splitHalves (segment ++ rest) = (splitHalves rest).modifyHead (segment ++ ·) := by
  induction segment with
  | nil =>
      show splitHalves rest = _
      cases splitHalves rest with
      | nil => rfl
      | cons head tail => rfl
  | cons c segment ih =>
      rw [List.mem_cons, not_or] at hsegment
      rw [List.cons_append, splitHalves_cons (fun heq => hsegment.left heq.symm),
        ih hsegment.right]
      cases splitHalves rest with
      | nil => rfl
      | cons head tail => rfl

theorem splitHalves_intercalate {segments : List (List Char)}
    (h : forall segment, segment ∈ segments -> segment ≠ [] ∧ ':' ∉ segment)
    (rest : List Char) :
    splitHalves ([':'].intercalate segments ++ rest) =
      (splitHalves rest).modifyHead ([':'].intercalate segments ++ ·) := by
  induction segments with
  | nil =>
      show splitHalves rest = _
      cases splitHalves rest with
      | nil => rfl
      | cons head tail => rfl
  | cons segment more ih =>
      have hsegment := h segment List.mem_cons_self
      have hmore : forall other, other ∈ more -> other ≠ [] ∧ ':' ∉ other :=
        fun other hother => h other (List.mem_cons_of_mem _ hother)
      cases more with
      | nil =>
          rw [List.intercalate_singleton]
          exact splitHalves_append hsegment.right rest
      | cons next more =>
          have hnext := hmore next List.mem_cons_self
          have hstart : exists d text,
              [':'].intercalate (next :: more) ++ rest = d :: text ∧ d ≠ ':' := by
            cases next with
            | nil => exact absurd rfl hnext.left
            | cons d digits =>
                have hd : d ≠ ':' := fun heq => hnext.right (heq ▸ List.mem_cons_self)
                cases more with
                | nil => exact ⟨d, _, rfl, hd⟩
                | cons other more =>
                    rw [List.intercalate_cons_cons]
                    exact ⟨d, _, rfl, hd⟩
          rcases hstart with ⟨d, text, hstart, hd⟩
          have hcolon : splitHalves (':' :: ([':'].intercalate (next :: more) ++ rest)) =
              (splitHalves ([':'].intercalate (next :: more) ++ rest)).modifyHead
                (':' :: ·) := by
            rw [hstart, splitHalves, if_neg fun hboth => hd hboth.right]
          rw [List.intercalate_cons_cons, List.append_assoc, List.append_assoc,
            List.singleton_append, splitHalves_append hsegment.right, hcolon, ih hmore]
          cases splitHalves rest with
          | nil => rfl
          | cons head tail =>
              simp

theorem lowered_parts (half : Half) :
    forall segment, segment ∈ half.lowered -> segment ≠ [] ∧ ':' ∉ segment :=
  fun _ hsegment => ⟨(Half.mem_lowered hsegment).left, (Half.mem_lowered hsegment).right.left⟩

theorem percent_not_mem (half : Half) : '%' ∉ [':'].intercalate half.lowered := by
  intro hmem
  cases mem_intercalate hmem with
  | inl heq => cases heq
  | inr hexists =>
      rcases hexists with ⟨segment, hsegment, hc⟩
      exact (Half.mem_lowered hsegment).right.right hc

/-- Every spelling of eight words is read back as these words. -/
theorem ipv6Words_of_denotes {text : List Char} {words : List Nat} (h : DenotesIpv6 text words) :
    ipv6Words text = .ok words := by
  have hnone : parseIpv6Half [] = .ok [] := rfl
  cases h with
  | @full half hlength =>
      have hsplit := splitHalves_intercalate (lowered_parts half) []
      rw [List.append_nil] at hsplit
      have hhalves : splitHalves ([':'].intercalate half.lowered) =
          [[':'].intercalate half.lowered] := by
        rw [hsplit]
        simp [splitHalves]
      rw [ipv6Words, half.map_toLower_text]
      dsimp only
      rw [if_neg (percent_not_mem half), hhalves]
      simp only [List.length_singleton, List.getElem?_cons_zero, List.getElem?_cons_succ,
        List.getElem?_nil, Option.getD_some, Option.getD_none, half.parseIpv6Half_lowered, hnone,
        bind, Except.bind]
      simp [hlength]
  | @compressed left right hleft hlength =>
      have hsplit := splitHalves_intercalate (lowered_parts left)
        (':' :: ':' :: [':'].intercalate right.lowered)
      have hrest := splitHalves_intercalate (lowered_parts right) []
      rw [List.append_nil] at hrest
      have hhalves : splitHalves ([':'].intercalate left.lowered ++
          ':' :: ':' :: [':'].intercalate right.lowered) =
            [[':'].intercalate left.lowered, [':'].intercalate right.lowered] := by
        rw [hsplit, splitHalves, if_pos ⟨rfl, rfl⟩, hrest]
        simp [splitHalves]
      have hpercent : '%' ∉ [':'].intercalate left.lowered ++
          ':' :: ':' :: [':'].intercalate right.lowered := by
        simp [percent_not_mem left, percent_not_mem right]
      have hmissing : (8 - (left.words.length : Int) - right.words.length).toNat =
          8 - (left.words.length + right.words.length) := by
        omega
      have hroom : ¬ (8 - (left.words.length : Int) - right.words.length < 1) := by
        omega
      rw [ipv6Words, List.map_append, List.map_cons, List.map_cons, left.map_toLower_text,
        right.map_toLower_text, show ':'.toLower = ':' from rfl]
      dsimp only
      rw [if_neg hpercent, hhalves]
      simp only [List.length_cons, List.length_nil, List.getElem?_cons_zero,
        List.getElem?_cons_succ, Option.getD_some, left.parseIpv6Half_lowered,
        right.parseIpv6Half_lowered, bind, Except.bind, hmissing]
      simp [hroom]

theorem ipv6Words_of_zone {text : List Char} (h : '%' ∈ text) :
    ipv6Words text = .error "scoped IPv6 is blocked" := by
  have hmem : '%' ∈ text.map Char.toLower := List.mem_map.mpr ⟨'%', h, rfl⟩
  rw [ipv6Words]
  dsimp only
  rw [if_pos hmem]

end Addresses
end Pertexo
