import Pertexo.Addresses.AddressPolicy
import Pertexo.Library.Numerals

/-!
# Matching prefixes

## Masks

The masks keep the leading bits and nothing else, at every prefix length.
-/

namespace Pertexo
namespace Addresses

open Library

theorem getLsbD_toInt32 (n i : Nat) :
    (toInt32 n).getLsbD i = (decide (i < 32) && n.testBit i) := by
  rw [toInt32, BitVec.getLsbD_ofNat]

theorem getLsbD_mask32 {length i : Nat} (hlength : 0 < length) (hle : length ≤ 32) :
    (shiftLeft (toInt32 0xffffffff) (32 - length)).getLsbD i =
      decide (32 - length ≤ i ∧ i < 32) := by
  have hcount : (32 - length) % 32 = 32 - length := Nat.mod_eq_of_lt (by omega)
  have hones : toInt32 0xffffffff = BitVec.allOnes 32 := by decide
  rw [shiftLeft, hcount, hones, BitVec.getLsbD_shiftLeft, BitVec.getLsbD_allOnes]
  by_cases hi : i < 32
  · by_cases hlow : i < 32 - length
    · have hnot : ¬ 32 ≤ i + length := by omega
      simp [hi, hlow, Nat.not_le.mp hnot]
    · have hle' : 32 - length ≤ i := by omega
      have hsub : i - (32 - length) < 32 := by omega
      simp [hi, hlow, hle', hsub]
  · simp [hi]

theorem getLsbD_mask16 {length i : Nat} (hlength : 0 < length) (hle : length < 16) :
    (shiftLeft (toInt32 0xffff) (16 - length) &&& toInt32 0xffff).getLsbD i =
      decide (16 - length ≤ i ∧ i < 16) := by
  have hcount : (16 - length) % 32 = 16 - length := Nat.mod_eq_of_lt (by omega)
  have hones (j : Nat) : (toInt32 0xffff).getLsbD j = decide (j < 16) := by
    rw [getLsbD_toInt32, show 0xffff = 2 ^ 16 - 1 from rfl, Nat.testBit_two_pow_sub_one]
    by_cases hj : j < 16
    · have hlt : j < 32 := by omega
      simp [hj, hlt]
    · simp [hj]
  rw [shiftLeft, hcount, BitVec.getLsbD_and, BitVec.getLsbD_shiftLeft, hones, hones]
  by_cases hi : i < 16
  · have hlt : i < 32 := by omega
    by_cases hlow : i < 16 - length
    · have hnot : ¬ 16 - length ≤ i := by omega
      simp [hi, hlt, hlow, hnot]
    · have hle' : 16 - length ≤ i := by omega
      have hsub : i - (16 - length) < 16 := by omega
      simp [hi, hlt, hlow, hle', hsub]
  · simp [hi]

/-!
## Prefixes of numbers
-/

theorem matchesIpv4Prefix_iff {address network length : Nat} (hlength : length ≤ 32) :
    matchesIpv4Prefix address network length = true ↔
      LeadingBitsAgree 32 length address network := by
  rw [matchesIpv4Prefix, beq_iff_eq, and_eq_and_iff]
  by_cases hzero : length = 0
  · subst hzero
    constructor
    · intro _ i hi
      omega
    · intro _ i hmask
      simp at hmask
  · rw [if_neg hzero]
    constructor
    · intro h i hi
      have hbit := h (32 - 1 - i) (by
        rw [getLsbD_mask32 (by omega) hlength, decide_eq_true_eq]
        omega)
      rw [getLsbD_toInt32, getLsbD_toInt32] at hbit
      have hlt : 32 - 1 - i < 32 := by omega
      simpa [hlt] using hbit
    · intro h i hmask
      rw [getLsbD_mask32 (by omega) hlength, decide_eq_true_eq] at hmask
      have hbit := h (32 - 1 - i) (by omega)
      have hindex : 32 - 1 - (32 - 1 - i) = i := by omega
      rw [hindex] at hbit
      rw [getLsbD_toInt32, getLsbD_toInt32, hbit]

/-!
## Prefixes of words
-/

/-- The bit of the words at a place, counted from the highest bit of the first. -/
def bitAt (words : List Nat) (k : Nat) : Bool :=
  (wordAt words (k / 16)).testBit (15 - k % 16)

def IsWord (word : Nat) : Prop :=
  word < 2 ^ 16

theorem wordAt_lt {words : List Nat} (h : forall word, word ∈ words -> IsWord word)
    (index : Nat) : wordAt words index < 2 ^ 16 := by
  rw [wordAt]
  cases hword : words[index]? with
  | none => simp
  | some word => exact h word (List.mem_of_getElem? hword)

theorem eq_of_bits {left right : Nat} (hleft : left < 2 ^ 16) (hright : right < 2 ^ 16)
    (h : forall i, i < 16 -> left.testBit (15 - i) = right.testBit (15 - i)) : left = right := by
  apply Nat.eq_of_testBit_eq
  intro j
  by_cases hj : j < 16
  · have hbit := h (15 - j) (by omega)
    have hindex : 15 - (15 - j) = j := by omega
    rw [hindex] at hbit
    exact hbit
  · have hpow : 2 ^ 16 ≤ 2 ^ j := Nat.pow_le_pow_right (by omega) (by omega)
    rw [Nat.testBit_lt_two_pow (by omega), Nat.testBit_lt_two_pow (by omega)]

theorem matchesIpv6Prefix_iff_bits {address network : List Nat} {length : Nat}
    (haddress : forall word, word ∈ address -> IsWord word)
    (hnetwork : forall word, word ∈ network -> IsWord word) :
    matchesIpv6Prefix address network length = true ↔
      forall k, k < length -> bitAt address k = bitAt network k := by
  rw [matchesIpv6Prefix, Bool.and_eq_true, List.all_eq_true]
  constructor
  · intro h k hk
    rcases h with ⟨hwhole, hrest⟩
    by_cases hindex : k / 16 < length / 16
    · have hword := hwhole (k / 16) (List.mem_range.mpr hindex)
      rw [bitAt, bitAt, beq_iff_eq.mp hword]
    · have hremaining : length % 16 ≠ 0 := by omega
      have hsame : k / 16 = length / 16 := by omega
      rw [if_neg hremaining, beq_iff_eq, and_eq_and_iff] at hrest
      have hbit := hrest (15 - k % 16) (by
        rw [getLsbD_mask16 (by omega) (by omega), decide_eq_true_eq]
        omega)
      rw [getLsbD_toInt32, getLsbD_toInt32] at hbit
      have hlt : 15 - k % 16 < 32 := by omega
      rw [bitAt, bitAt, hsame]
      simpa [hlt] using hbit
  · intro h
    constructor
    · intro index hindex
      rw [List.mem_range] at hindex
      rw [beq_iff_eq]
      apply eq_of_bits (wordAt_lt haddress index) (wordAt_lt hnetwork index)
      intro i hi
      have hbit := h (16 * index + i) (by omega)
      have hdiv : (16 * index + i) / 16 = index := by omega
      have hmod : (16 * index + i) % 16 = i := by omega
      rw [bitAt, bitAt, hdiv, hmod] at hbit
      exact hbit
    · by_cases hremaining : length % 16 = 0
      · rw [if_pos hremaining]
      · rw [if_neg hremaining, beq_iff_eq, and_eq_and_iff]
        intro i hmask
        rw [getLsbD_mask16 (by omega) (by omega), decide_eq_true_eq] at hmask
        have hbit := h (16 * (length / 16) + (15 - i)) (by omega)
        have hdiv : (16 * (length / 16) + (15 - i)) / 16 = length / 16 := by omega
        have hmod : (16 * (length / 16) + (15 - i)) % 16 = 15 - i := by omega
        have hback : 15 - (15 - i) = i := by omega
        rw [bitAt, bitAt, hdiv, hmod, hback] at hbit
        rw [getLsbD_toInt32, getLsbD_toInt32, hbit]

/-- The 128-bit number that eight words stand for; words that are left out are zero. -/
def wordsValue (words : List Nat) : Nat :=
  blocksValue 16 (words ++ List.replicate (8 - words.length) 0)

theorem testBit_wordsValue {words : List Nat} (hlength : words.length ≤ 8)
    (h : forall word, word ∈ words -> IsWord word) {k : Nat} (hk : k < 128) :
    (wordsValue words).testBit (128 - 1 - k) = bitAt words k := by
  have hwords : forall word, word ∈ words ++ List.replicate (8 - words.length) 0 ->
      word < 2 ^ 16 := by
    intro word hword
    rcases List.mem_append.mp hword with hword | hzero
    · exact h word hword
    · rw [(List.mem_replicate.mp hzero).right]
      decide
  have height : (words ++ List.replicate (8 - words.length) 0).length = 8 := by
    rw [List.length_append, List.length_replicate]
    omega
  have hbit := @testBit_blocksValue 16 (by decide) _ hwords k (by rw [height]; omega)
  rw [height] at hbit
  rw [wordsValue, hbit, bitAt, wordAt]
  by_cases hindex : k / 16 < words.length
  · rw [List.getElem?_append_left hindex]
  · rw [List.getElem?_append_right (by omega), List.getElem?_replicate,
      List.getElem?_eq_none (by omega)]
    split <;> rfl

theorem matchesIpv6Prefix_iff {address network : List Nat} {length : Nat}
    (haddress : forall word, word ∈ address -> IsWord word) (hlength : address.length ≤ 8)
    (hnetwork : forall word, word ∈ network -> IsWord word) (hlength' : network.length ≤ 8)
    (hfits : length ≤ 128) :
    matchesIpv6Prefix address network length = true ↔
      LeadingBitsAgree 128 length (wordsValue address) (wordsValue network) := by
  rw [matchesIpv6Prefix_iff_bits haddress hnetwork]
  constructor
  · intro h k hk
    rw [testBit_wordsValue hlength haddress (by omega),
      testBit_wordsValue hlength' hnetwork (by omega)]
    exact h k hk
  · intro h k hk
    have hbit := h k hk
    rw [testBit_wordsValue hlength haddress (by omega),
      testBit_wordsValue hlength' hnetwork (by omega)] at hbit
    exact hbit

end Addresses
end Pertexo
