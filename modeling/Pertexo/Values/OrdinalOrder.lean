import Mathlib.Data.List.Lex
import Pertexo.Library.Sorting
import Pertexo.Values.Text

/-!
# The order of texts

## Comparing texts
-/

namespace Pertexo
namespace Values

open Library

theorem isLE_compareOrdinal_iff {left right : String} :
    (compareOrdinal left right).isLE = true ↔ utf16Units left ≤ utf16Units right := by
  unfold compareOrdinal
  split
  · next hlt => simp [le_of_lt hlt]
  · split
    · next hgt => simp [not_le_of_gt hgt]
    · next hge => simpa using hge

theorem comparesTotally_ordinal : ComparesTotally compareOrdinal where
  total := by
    intro left right
    rw [isLE_compareOrdinal_iff, isLE_compareOrdinal_iff]
    exact le_total _ _
  trans := by
    intro first second third
    rw [isLE_compareOrdinal_iff, isLE_compareOrdinal_iff, isLE_compareOrdinal_iff]
    exact le_trans

end Values
end Pertexo
