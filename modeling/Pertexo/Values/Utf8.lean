import Pertexo.Values.ScriptStrings
import Pertexo.Values.Text

/-!
# Bytes of script strings

## Writing UTF-8

A lone surrogate is written as the replacement character.
-/

namespace Pertexo
namespace Values

abbrev Bytes := List UInt8

def replacementUnit : UInt16 :=
  0xFFFD

def codePointBytes : CodePoint -> Bytes
  | .char c => String.utf8EncodeChar c
  | .lone _ => [0xEF, 0xBF, 0xBD]

def hexByteValue (byte : UInt8) : Option Nat :=
  hexDigitValue (Char.ofNat byte.toNat)

def utf8Bytes (text : ScriptString) : Bytes :=
  (codePoints text).flatMap codePointBytes

/-!
## Reading UTF-8

A byte that does not continue a sequence ends it with a replacement character,
and starts over.
-/

structure Utf8Sequence where
  needed : Nat
  point : Nat
  lower : Nat
  upper : Nat

def startSequence (byte : UInt8) : ScriptString × Option Utf8Sequence :=
  let b := byte.toNat
  if b <= 0x7F then ([UInt16.ofNat b], none)
  else if 0xC2 <= b && b <= 0xDF then
    ([], some { needed := 1, point := b % 0x20, lower := 0x80, upper := 0xBF })
  else if 0xE0 <= b && b <= 0xEF then
    ([], some
      { needed := 2
        point := b % 0x10
        lower := if b == 0xE0 then 0xA0 else 0x80
        upper := if b == 0xED then 0x9F else 0xBF })
  else if 0xF0 <= b && b <= 0xF4 then
    ([], some
      { needed := 3
        point := b % 0x8
        lower := if b == 0xF0 then 0x90 else 0x80
        upper := if b == 0xF4 then 0x8F else 0xBF })
  else ([replacementUnit], none)

def readByte (text : ScriptString) (sequence : Option Utf8Sequence) (byte : UInt8) :
    ScriptString × Option Utf8Sequence :=
  match sequence with
  | none =>
      let (units, next) := startSequence byte
      (text ++ units, next)
  | some sequence =>
      if sequence.lower <= byte.toNat && byte.toNat <= sequence.upper then
        let point := sequence.point * 0x40 + byte.toNat % 0x40
        if sequence.needed <= 1 then (text ++ charUnits (Char.ofNat point), none)
        else
          (text, some
            { needed := sequence.needed - 1, point := point, lower := 0x80, upper := 0xBF })
      else
        let (units, next) := startSequence byte
        (text ++ [replacementUnit] ++ units, next)

def readUtf8 (bytes : Bytes) : ScriptString :=
  let (text, sequence) :=
    bytes.foldl (fun (text, sequence) byte => readByte text sequence byte) ([], none)
  if sequence.isSome then text ++ [replacementUnit] else text

/-!
## Reading what was written

The bytes of a character bring the reader from the end of one character to the end
of the next.
-/

def readBytes (state : ScriptString × Option Utf8Sequence) (bytes : Bytes) :
    ScriptString × Option Utf8Sequence :=
  bytes.foldl (fun (text, sequence) byte => readByte text sequence byte) state

@[simp] theorem readBytes_nil (state : ScriptString × Option Utf8Sequence) :
    readBytes state [] = state := rfl

theorem readBytes_cons (text : ScriptString) (sequence : Option Utf8Sequence) (byte : UInt8)
    (rest : Bytes) : readBytes (text, sequence) (byte :: rest) =
      readBytes (readByte text sequence byte) rest := rfl

theorem readBytes_append (state : ScriptString × Option Utf8Sequence) (first second : Bytes) :
    readBytes state (first ++ second) = readBytes (readBytes state first) second :=
  List.foldl_append

theorem toNat_ofNat_lt {n : Nat} (h : n < 256) : (UInt8.ofNat n).toNat = n := by
  rw [UInt8.toNat_ofNat', Nat.mod_eq_of_lt h]

theorem readByte_next {text : ScriptString} {needed point lower upper n : Nat}
    (hlower : lower ≤ n) (hupper : n ≤ upper) (hbyte : n < 256) :
    readByte text (some { needed := needed + 2, point, lower, upper }) (UInt8.ofNat n) =
      (text, some
        { needed := needed + 1, point := point * 0x40 + n % 0x40, lower := 0x80,
          upper := 0xBF }) := by
  simp [readByte, toNat_ofNat_lt hbyte, hlower, hupper]

theorem readByte_last {text : ScriptString} {point lower upper n : Nat}
    (hlower : lower ≤ n) (hupper : n ≤ upper) (hbyte : n < 256) :
    readByte text (some { needed := 1, point, lower, upper }) (UInt8.ofNat n) =
      (text ++ charUnits (Char.ofNat (point * 0x40 + n % 0x40)), none) := by
  simp [readByte, toNat_ofNat_lt hbyte, hlower, hupper]

theorem readBytes_utf8EncodeChar (text : ScriptString) (c : Char) :
    readBytes (text, none) (String.utf8EncodeChar c) = (text ++ charUnits c, none) := by
  have hvalid : c.val.toNat < 0xD800 ∨ 0xDFFF < c.val.toNat ∧ c.val.toNat < 0x110000 := c.valid
  have hchar : Char.ofNat c.val.toNat = c := Char.ofNat_toNat c
  have hunits : c.val.toNat < 0x10000 -> charUnits c = [UInt16.ofNat c.val.toNat] := by
    intro h
    exact if_pos h
  unfold String.utf8EncodeChar
  generalize c.val.toNat = n at hvalid hchar hunits ⊢
  dsimp only
  split
  · next hone =>
    have hstart : startSequence (UInt8.ofNat n) = (charUnits c, none) := by
      rw [startSequence, toNat_ofNat_lt (by omega), hunits (by omega)]
      exact if_pos hone
    rw [readBytes_cons, readByte, hstart]
    rfl
  · split
    · next hone htwo =>
      have hpoint : (n / 64 % 0x20 + 0xC0) % 0x20 * 0x40 + (n % 0x40 + 0x80) % 0x40 = n := by
        omega
      have hstart : startSequence (UInt8.ofNat (n / 64 % 0x20 + 0xC0)) =
          ([], some
            { needed := 1, point := (n / 64 % 0x20 + 0xC0) % 0x20, lower := 0x80,
              upper := 0xBF }) := by
        rw [startSequence, toNat_ofNat_lt (by omega)]
        rw [if_neg (by omega), if_pos]
        rw [Bool.and_eq_true, decide_eq_true_eq, decide_eq_true_eq]
        omega
      rw [readBytes_cons, readByte, hstart]
      dsimp only
      rw [readBytes_cons, readByte_last (by omega) (by omega) (by omega), hpoint, hchar,
        List.append_nil]
      rfl
    · next hone htwo =>
      split
      · next hthree =>
        have hpoint : ((n / 4096 % 0x10 + 0xE0) % 0x10 * 0x40 + (n / 64 % 0x40 + 0x80) % 0x40) *
            0x40 + (n % 0x40 + 0x80) % 0x40 = n := by
          omega
        have hstart : startSequence (UInt8.ofNat (n / 4096 % 0x10 + 0xE0)) =
            ([], some
              { needed := 2
                point := (n / 4096 % 0x10 + 0xE0) % 0x10
                lower := if n / 4096 % 0x10 + 0xE0 == 0xE0 then 0xA0 else 0x80
                upper := if n / 4096 % 0x10 + 0xE0 == 0xED then 0x9F else 0xBF }) := by
          rw [startSequence, toNat_ofNat_lt (by omega)]
          rw [if_neg (by omega), if_neg, if_pos]
          · rw [Bool.and_eq_true, decide_eq_true_eq, decide_eq_true_eq]
            omega
          · rw [Bool.and_eq_true, decide_eq_true_eq, decide_eq_true_eq]
            omega
        have hlower : (if n / 4096 % 0x10 + 0xE0 == 0xE0 then 0xA0 else 0x80) ≤
            n / 64 % 0x40 + 0x80 := by
          simp only [beq_iff_eq]
          split
          · omega
          · omega
        have hupper : n / 64 % 0x40 + 0x80 ≤
            if n / 4096 % 0x10 + 0xE0 == 0xED then 0x9F else 0xBF := by
          simp only [beq_iff_eq]
          split
          · omega
          · omega
        rw [readBytes_cons, readByte, hstart]
        dsimp only
        rw [readBytes_cons, readByte_next hlower hupper (by omega), readBytes_cons,
          readByte_last (by omega) (by omega) (by omega),
          hpoint, hchar, List.append_nil]
        rfl
      · next hthree =>
        have hpoint : (((n / 262144 % 0x08 + 0xF0) % 0x8 * 0x40 +
            (n / 4096 % 0x40 + 0x80) % 0x40) * 0x40 + (n / 64 % 0x40 + 0x80) % 0x40) * 0x40 +
            (n % 0x40 + 0x80) % 0x40 = n := by
          omega
        have hstart : startSequence (UInt8.ofNat (n / 262144 % 0x08 + 0xF0)) =
            ([], some
              { needed := 3
                point := (n / 262144 % 0x08 + 0xF0) % 0x8
                lower := if n / 262144 % 0x08 + 0xF0 == 0xF0 then 0x90 else 0x80
                upper := if n / 262144 % 0x08 + 0xF0 == 0xF4 then 0x8F else 0xBF }) := by
          rw [startSequence, toNat_ofNat_lt (by omega)]
          rw [if_neg (by omega), if_neg, if_neg, if_pos]
          · rw [Bool.and_eq_true, decide_eq_true_eq, decide_eq_true_eq]
            omega
          · rw [Bool.and_eq_true, decide_eq_true_eq, decide_eq_true_eq]
            omega
          · rw [Bool.and_eq_true, decide_eq_true_eq, decide_eq_true_eq]
            omega
        have hlower : (if n / 262144 % 0x08 + 0xF0 == 0xF0 then 0x90 else 0x80) ≤
            n / 4096 % 0x40 + 0x80 := by
          simp only [beq_iff_eq]
          split
          · omega
          · omega
        have hupper : n / 4096 % 0x40 + 0x80 ≤
            if n / 262144 % 0x08 + 0xF0 == 0xF4 then 0x8F else 0xBF := by
          simp only [beq_iff_eq]
          split
          · omega
          · omega
        rw [readBytes_cons, readByte, hstart]
        dsimp only
        rw [readBytes_cons, readByte_next hlower hupper (by omega), readBytes_cons,
          readByte_next (by omega) (by omega) (by omega),
          readBytes_cons,
          readByte_last (by omega) (by omega) (by omega),
          hpoint, hchar, List.append_nil]
        rfl

/-- What the bytes of a text are read as: a lone surrogate is replaced. -/
theorem readUtf8_utf8Bytes (text : ScriptString) :
    readUtf8 (utf8Bytes text) = (codePoints text).flatMap fun point =>
      match point with
      | .char c => charUnits c
      | .lone _ => [replacementUnit] := by
  have hall : forall (points : List CodePoint) (start : ScriptString),
      readBytes (start, none) (points.flatMap codePointBytes) =
        (start ++ points.flatMap fun point =>
          match point with
          | .char c => charUnits c
          | .lone _ => [replacementUnit], none) := by
    intro points
    induction points with
    | nil =>
        intro start
        rw [List.flatMap_nil, List.flatMap_nil, List.append_nil]
        rfl
    | cons point rest ih =>
        intro start
        have hpoint : readBytes (start, none) (codePointBytes point) =
            (start ++ match point with
              | .char c => charUnits c
              | .lone _ => [replacementUnit], none) := by
          cases point with
          | char c => exact readBytes_utf8EncodeChar start c
          | lone unit => exact readBytes_utf8EncodeChar start (Char.ofNat 0xFFFD)
        rw [List.flatMap_cons, readBytes_append, hpoint, ih, List.flatMap_cons, List.append_assoc]
  have hread := hall (codePoints text) []
  rw [List.nil_append] at hread
  rw [readUtf8]
  change (let (text, sequence) := readBytes ([], none) ((codePoints text).flatMap codePointBytes)
    if sequence.isSome then text ++ [replacementUnit] else text) = _
  rw [hread]
  rfl

end Values
end Pertexo
