import Mathlib.Data.List.Basic

/-!
# Filling pages in order

Items go to the page under construction as long as it takes them. An item that
the page does not take starts the next page; an empty page takes any item.
-/

namespace Pertexo
namespace Library

variable {α : Type u}

def fillPages (takes : List α -> α -> Bool) (page : List α) : List α -> List (List α)
  | [] => if page.isEmpty then [] else [page]
  | item :: rest =>
      if page.isEmpty || takes page item then fillPages takes (page ++ [item]) rest
      else page :: fillPages takes [item] rest

variable {takes : List α -> α -> Bool}

theorem flatten_fillPages (page items : List α) :
    (fillPages takes page items).flatten = page ++ items := by
  induction items generalizing page with
  | nil =>
      cases page with
      | nil => rfl
      | cons item rest => simp [fillPages]
  | cons item rest ih =>
      rw [fillPages]
      split
      · rw [ih, List.append_assoc]
        rfl
      · rw [List.flatten_cons, ih]
        rfl

/-- What one item alone satisfies, and every page keeps that takes an item, holds of every page. -/
theorem fillPages_invariant {P : List α -> Prop} {page items : List α}
    (hpage : page ≠ [] -> P page) (hsingle : forall item, item ∈ items -> P [item])
    (htakes : forall filled item, item ∈ items -> P filled -> takes filled item = true ->
      P (filled ++ [item])) :
    forall full, full ∈ fillPages takes page items -> full ≠ [] ∧ P full := by
  induction items generalizing page with
  | nil =>
      intro full hfull
      cases page with
      | nil => cases hfull
      | cons item rest =>
          cases List.mem_singleton.mp hfull
          exact ⟨by simp, hpage (by simp)⟩
  | cons item rest ih =>
      have hsingle' : forall other, other ∈ rest -> P [other] := fun other hother =>
        hsingle other (List.mem_cons_of_mem _ hother)
      have htakes' : forall filled other, other ∈ rest -> P filled ->
          takes filled other = true -> P (filled ++ [other]) := fun filled other hother =>
        htakes filled other (List.mem_cons_of_mem _ hother)
      intro full hfull
      rw [fillPages] at hfull
      split at hfull
      · next htaken =>
        apply ih _ hsingle' htakes' full hfull
        intro _
        cases page with
        | nil => exact hsingle item (List.mem_cons_self ..)
        | cons first others =>
            apply htakes _ _ (List.mem_cons_self ..) (hpage (by simp))
            simpa using htaken
      · next hnot =>
        cases List.mem_cons.mp hfull with
        | inl hfirst =>
            have hne : page ≠ [] := by
              intro hempty
              simp [hempty] at hnot
            rw [hfirst]
            exact ⟨hne, hpage hne⟩
        | inr hlater =>
            exact ih (fun _ => hsingle item (List.mem_cons_self ..)) hsingle' htakes' full hlater

theorem exists_fillPages_eq_cons (takes : List α -> α -> Bool) (page : List α)
    (hne : page ≠ []) (items : List α) :
    exists added later, fillPages takes page items = (page ++ added) :: later := by
  induction items generalizing page with
  | nil =>
      exists [], []
      cases page with
      | nil => exact absurd rfl hne
      | cons item rest => simp [fillPages]
  | cons item rest ih =>
      rw [fillPages]
      split
      · rcases ih (page ++ [item]) (by simp) with ⟨added, later, h⟩
        exists item :: added, later
        rw [h, List.append_assoc]
        rfl
      · exists [], fillPages takes [item] rest
        rw [List.append_nil]

end Library
end Pertexo
