import Mathlib.Data.List.Basic

/-!
# Global replacement

A pattern matches pieces of one length. Replacing all of them reads the text
once, from the left; what a match has taken is not read again.
-/

namespace Pertexo
namespace Library

structure FixedPattern (α β : Type) where
  /-- The length of a match without its first item. -/
  more : Nat
  found : List α -> Option β

section

variable {α β : Type}

def FixedPattern.skipping (pattern : FixedPattern α β) (replacement : β -> List α) :
    Nat -> List α -> List α
  | _, [] => []
  | skip + 1, _ :: rest => pattern.skipping replacement skip rest
  | 0, item :: rest =>
      match pattern.found (item :: rest) with
      | some matched => replacement matched ++ pattern.skipping replacement pattern.more rest
      | none => item :: pattern.skipping replacement 0 rest

def FixedPattern.replaceAll (pattern : FixedPattern α β) (replacement : β -> List α)
    (text : List α) : List α :=
  pattern.skipping replacement 0 text

variable {pattern : FixedPattern α β} {replacement : β -> List α}

theorem FixedPattern.skipping_eq (skip : Nat) (text : List α) :
    pattern.skipping replacement skip text = pattern.replaceAll replacement (text.drop skip) := by
  induction text generalizing skip with
  | nil =>
      rw [List.drop_nil]
      cases skip with
      | zero => rfl
      | succ skip => rfl
  | cons item rest ih =>
      cases skip with
      | zero => rfl
      | succ skip => exact ih skip

@[simp] theorem FixedPattern.replaceAll_nil : pattern.replaceAll replacement [] = [] := rfl

theorem FixedPattern.replaceAll_of_found {item : α} {rest : List α} {matched : β}
    (h : pattern.found (item :: rest) = some matched) :
    pattern.replaceAll replacement (item :: rest) =
      replacement matched ++ pattern.replaceAll replacement (rest.drop pattern.more) := by
  rw [replaceAll, skipping, h]
  show replacement matched ++ _ = _
  rw [skipping_eq]

theorem FixedPattern.replaceAll_of_not_found {item : α} {rest : List α}
    (h : pattern.found (item :: rest) = none) :
    pattern.replaceAll replacement (item :: rest) =
      item :: pattern.replaceAll replacement rest := by
  rw [replaceAll, skipping, h]
  rfl

end

end Library
end Pertexo
