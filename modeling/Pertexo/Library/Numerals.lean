import Mathlib.Algebra.Order.Ring.Nat
import Mathlib.Data.BitVec
import Mathlib.Data.List.Basic
import Mathlib.Data.Nat.Bitwise
import Mathlib.Tactic.Ring

/-!
# Numerals

Numbers written with digits: without a zero digit, in bytes from the lowest one, and as bits
whose first ones are compared.

## Digits without zero

In a bijective numeration of a base the digits run from one to the base, and every
number has one spelling. Digits are counted from zero here: a digit `d` stands for
`d + 1`. The fuel bounds the number of digits; the number itself is always enough.
-/

namespace Pertexo
namespace Library

def bijectiveDigits (base : Nat) : Nat -> Nat -> List Nat -> List Nat
  | 0, _, digits => digits
  | fuel + 1, rest, digits =>
      if rest = 0 then digits
      else bijectiveDigits base fuel ((rest - 1) / base) ((rest - 1) % base :: digits)

def bijectiveValue (base : Nat) (digits : List Nat) : Nat :=
  digits.foldl (fun value digit => value * base + digit + 1) 0

theorem bijectiveDigits_append (base fuel rest : Nat) (digits : List Nat) :
    bijectiveDigits base fuel rest digits = bijectiveDigits base fuel rest [] ++ digits := by
  induction fuel generalizing rest digits with
  | zero => rfl
  | succ fuel ih =>
      rw [bijectiveDigits, bijectiveDigits]
      split
      · rfl
      · rw [ih, ih _ [_], List.append_assoc, List.singleton_append]

theorem bijectiveDigits_lt {base : Nat} (hbase : 0 < base) (fuel rest : Nat) :
    forall digit, digit ∈ bijectiveDigits base fuel rest [] -> digit < base := by
  induction fuel generalizing rest with
  | zero =>
      intro digit hdigit
      cases hdigit
  | succ fuel ih =>
      intro digit hdigit
      rw [bijectiveDigits] at hdigit
      split at hdigit
      · cases hdigit
      · rw [bijectiveDigits_append, List.mem_append, List.mem_singleton] at hdigit
        rcases hdigit with hdigit | rfl
        · exact ih _ digit hdigit
        · exact Nat.mod_lt _ hbase

theorem bijectiveValue_digits {base fuel rest : Nat} (h : rest ≤ fuel) :
    bijectiveValue base (bijectiveDigits base fuel rest []) = rest := by
  induction fuel generalizing rest with
  | zero =>
      have hzero : rest = 0 := Nat.le_zero.mp h
      rw [hzero]
      rfl
  | succ fuel ih =>
      rw [bijectiveDigits]
      split
      · next hzero =>
          rw [hzero]
          rfl
      · next hpos =>
          have hle : (rest - 1) / base ≤ fuel := by
            have hdiv := Nat.div_le_self (rest - 1) base
            omega
          have hvalue := ih hle
          rw [bijectiveValue] at hvalue
          rw [bijectiveDigits_append, bijectiveValue, List.foldl_append, hvalue]
          have hdivmod := Nat.div_add_mod (rest - 1) base
          rw [Nat.mul_comm] at hdivmod
          simp only [List.foldl_cons, List.foldl_nil]
          omega

theorem length_bijectiveDigits_le {base : Nat} (hbase : 0 < base) (places : Nat)
    {fuel rest : Nat} (h : rest < bijectiveValue base (List.replicate (places + 1) 0)) :
    (bijectiveDigits base fuel rest []).length ≤ places := by
  induction places generalizing fuel rest with
  | zero =>
      have hzero : rest = 0 := by
        simpa [bijectiveValue] using h
      cases fuel with
      | zero => simp [bijectiveDigits]
      | succ fuel => simp [bijectiveDigits, hzero]
  | succ places ih =>
      cases fuel with
      | zero => simp [bijectiveDigits]
      | succ fuel =>
          rw [bijectiveDigits]
          split
          · simp
          · next hpos =>
              have hstep : bijectiveValue base (List.replicate (places + 1 + 1) 0) =
                  bijectiveValue base (List.replicate (places + 1) 0) * base + 1 := by
                rw [List.replicate_succ', bijectiveValue, bijectiveValue, List.foldl_append]
                rfl
              rw [hstep] at h
              have hless : (rest - 1) / base <
                  bijectiveValue base (List.replicate (places + 1) 0) := by
                rw [Nat.div_lt_iff_lt_mul hbase]
                omega
              have hlength := @ih fuel ((rest - 1) / base) hless
              rw [bijectiveDigits_append, List.length_append, List.length_singleton]
              omega

/-!
## Writing a number

A number is written as a given number of bytes, the least significant first.
-/

def littleEndian : Nat -> Nat -> List UInt8
  | 0, _ => []
  | width + 1, n => UInt8.ofNat (n % 256) :: littleEndian width (n / 256)

def fromLittleEndian : List UInt8 -> Nat
  | [] => 0
  | byte :: rest => byte.toNat + 256 * fromLittleEndian rest

@[simp] theorem length_littleEndian (width n : Nat) : (littleEndian width n).length = width := by
  induction width generalizing n with
  | zero => rfl
  | succ width ih => rw [littleEndian, List.length_cons, ih]

theorem fromLittleEndian_littleEndian {width n : Nat} (h : n < 256 ^ width) :
    fromLittleEndian (littleEndian width n) = n := by
  induction width generalizing n with
  | zero =>
      rw [Nat.pow_zero] at h
      rw [Nat.lt_one_iff.mp h]
      rfl
  | succ width ih =>
      have hrest : n / 256 < 256 ^ width := by
        rw [Nat.div_lt_iff_lt_mul (by decide), ← Nat.pow_succ]
        exact h
      have hbyte : (UInt8.ofNat (n % 256)).toNat = n % 256 := by
        rw [UInt8.toNat_ofNat', Nat.mod_mod]
      rw [littleEndian, fromLittleEndian, ih hrest, hbyte]
      exact Nat.mod_add_div n 256

/-!
## Reading a field

A field of a view is read where it lies within the view. What stands before it can
be left away.
-/

def readField (view : List UInt8) (offset width : Nat) : Option Nat :=
  if offset + width ≤ view.length then
    some (fromLittleEndian ((view.drop offset).take width))
  else none

theorem readField_append {front : List UInt8} {offset : Nat} (hfront : front.length = offset)
    (rest : List UInt8) (distance width : Nat) :
    readField (front ++ rest) (offset + distance) width = readField rest distance width := by
  subst hfront
  rw [readField, readField, List.length_append, List.drop_append, Nat.add_sub_cancel_left,
    List.drop_eq_nil_of_le (Nat.le_add_right _ _), List.nil_append, Nat.add_assoc]
  simp only [Nat.add_le_add_iff_left]

theorem readField_littleEndian {width n : Nat} (h : n < 256 ^ width) (rest : List UInt8) :
    readField (littleEndian width n ++ rest) 0 width = some n := by
  have htake : (littleEndian width n ++ rest).take width = littleEndian width n := by
    rw [List.take_append_of_le_length (Nat.le_of_eq (length_littleEndian width n).symm),
      List.take_of_length_le (Nat.le_of_eq (length_littleEndian width n))]
  rw [readField, List.drop_zero, htake, fromLittleEndian_littleEndian h, if_pos]
  rw [List.length_append, length_littleEndian, Nat.zero_add]
  exact Nat.le_add_right _ _

theorem readField_skip {width n distance skipped : Nat} (h : width + distance = skipped)
    (rest : List UInt8) (fieldWidth : Nat) :
    readField (littleEndian width n ++ rest) skipped fieldWidth =
      readField rest distance fieldWidth := by
  rw [← h]
  exact readField_append (length_littleEndian width n) rest distance fieldWidth

/-!
## Records

A record is a sequence of fields, each of a width and a value. A field stands behind
the widths of the fields before it.
-/

def encodeFields (fields : List (Nat × Nat)) : List UInt8 :=
  fields.flatMap fun field => littleEndian field.1 field.2

theorem length_encodeFields (fields : List (Nat × Nat)) :
    (encodeFields fields).length = (fields.map Prod.fst).sum := by
  induction fields with
  | nil => rfl
  | cons field rest ih =>
      rw [encodeFields, List.flatMap_cons, List.length_append, length_littleEndian, List.map_cons,
        List.sum_cons, ← ih]
      rfl

theorem readField_encodeFields {fields : List (Nat × Nat)}
    (h : forall field, field ∈ fields -> field.2 < 256 ^ field.1) {index width n : Nat}
    (hat : fields[index]? = some (width, n)) (rest : List UInt8) :
    readField (encodeFields fields ++ rest) ((fields.take index).map Prod.fst).sum width =
      some n := by
  induction fields generalizing index with
  | nil => cases hat
  | cons field others ih =>
      rw [List.forall_mem_cons] at h
      rw [encodeFields, List.flatMap_cons, List.append_assoc]
      cases index with
      | zero =>
          cases Option.some.inj hat
          exact readField_littleEndian h.left _
      | succ index =>
          rw [List.take_succ_cons, List.map_cons, List.sum_cons, readField_skip rfl]
          exact ih h.right hat

/-!
## Masks

Two words agree under a mask when they agree on every bit the mask keeps.
-/

theorem and_eq_and_iff {w : Nat} {x y mask : BitVec w} :
    x &&& mask = y &&& mask ↔
      forall i, mask.getLsbD i = true -> x.getLsbD i = y.getLsbD i := by
  constructor
  · intro h i hmask
    have hbit := congrArg (fun word => word.getLsbD i) h
    simpa [hmask] using hbit
  · intro h
    apply BitVec.eq_of_getLsbD_eq
    intro i _
    rw [BitVec.getLsbD_and, BitVec.getLsbD_and]
    cases hmask : mask.getLsbD i with
    | true => rw [h i hmask]
    | false => rw [Bool.and_false, Bool.and_false]

/-!
## Numbers of a width

The leading bits of a number of a given width are counted from the highest bit.
-/

/-- The first `length` of the `width` bits of two numbers are the same. -/
def LeadingBitsAgree (width length left right : Nat) : Prop :=
  forall i, i < length -> left.testBit (width - 1 - i) = right.testBit (width - 1 - i)

/-- Zeros in front of two numbers add to the bits that agree. -/
theorem leadingBitsAgree_widen {width length left right : Nat} (zeros : Nat)
    (hlength : length ≤ width) (hleft : left < 2 ^ width) (hright : right < 2 ^ width) :
    LeadingBitsAgree (width + zeros) (length + zeros) left right ↔
      LeadingBitsAgree width length left right := by
  constructor
  · intro h i hi
    have hbit := h (i + zeros) (by omega)
    have hindex : width + zeros - 1 - (i + zeros) = width - 1 - i := by omega
    rw [hindex] at hbit
    exact hbit
  · intro h i hi
    by_cases hzero : i < zeros
    · have hpow : 2 ^ width ≤ 2 ^ (width + zeros - 1 - i) :=
        Nat.pow_le_pow_right (by omega) (by omega)
      rw [Nat.testBit_lt_two_pow (by omega), Nat.testBit_lt_two_pow (by omega)]
    · have hbit := h (i - zeros) (by omega)
      have hindex : width - 1 - (i - zeros) = width + zeros - 1 - i := by omega
      rw [hindex] at hbit
      exact hbit

/-!
## Numbers in blocks

A number written in blocks of `w` bits has its leading bits in the blocks, one
block after the other.
-/

def blocksValue (w : Nat) : List Nat -> Nat
  | [] => 0
  | block :: rest => block * 2 ^ (w * rest.length) + blocksValue w rest

theorem blocksValue_lt {w : Nat} {blocks : List Nat}
    (h : forall block, block ∈ blocks -> block < 2 ^ w) :
    blocksValue w blocks < 2 ^ (w * blocks.length) := by
  induction blocks with
  | nil => simp [blocksValue]
  | cons block rest ih =>
      have hrest := ih fun other hother => h other (List.mem_cons_of_mem _ hother)
      have hblock : block + 1 ≤ 2 ^ w := h block List.mem_cons_self
      have hmul := Nat.mul_le_mul_right (2 ^ (w * rest.length)) hblock
      rw [← Nat.pow_add, Nat.add_mul, Nat.one_mul] at hmul
      rw [blocksValue, List.length_cons, Nat.mul_succ, Nat.add_comm (w * rest.length)]
      omega

theorem testBit_blocksValue {w : Nat} (hw : 0 < w) {blocks : List Nat}
    (h : forall block, block ∈ blocks -> block < 2 ^ w) {k : Nat} (hk : k < w * blocks.length) :
    (blocksValue w blocks).testBit (w * blocks.length - 1 - k) =
      (blocks[k / w]?.getD 0).testBit (w - 1 - k % w) := by
  induction blocks generalizing k with
  | nil => simp at hk
  | cons block rest ih =>
      have hrest : forall other, other ∈ rest -> other < 2 ^ w := fun other hother =>
        h other (List.mem_cons_of_mem _ hother)
      have hlt := blocksValue_lt hrest
      rw [List.length_cons, Nat.mul_succ] at hk ⊢
      rw [blocksValue, Nat.mul_comm block, Nat.testBit_two_pow_mul_add _ hlt]
      by_cases hfirst : k < w
      · have hdiv : k / w = 0 := Nat.div_eq_of_lt hfirst
        have hmod : k % w = k := Nat.mod_eq_of_lt hfirst
        have hindex : w * rest.length + w - 1 - k - w * rest.length = w - 1 - k := by
          omega
        rw [if_neg (by omega), hdiv, hmod, hindex]
        rfl
      · have hdiv : k / w = (k - w) / w + 1 := by
          rw [← Nat.add_div_right _ hw, Nat.sub_add_cancel (by omega)]
        have hmod : k % w = (k - w) % w := by
          rw [Nat.mod_eq_sub_mod (by omega)]
        have hindex : w * rest.length + w - 1 - k = w * rest.length - 1 - (k - w) := by
          omega
        rw [if_pos (by omega), hindex, ih hrest (by omega), hdiv, hmod]
        rfl

end Library
end Pertexo
