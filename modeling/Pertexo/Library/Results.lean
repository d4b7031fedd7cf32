import Mathlib.Data.List.Forall2
import Mathlib.Data.List.ProdSigma

/-!
# Results that may fail

## Success of a sequence of steps

A sequence of fallible steps succeeds when every step does. A fold over a list
of steps keeps whatever each of its steps keeps.
-/

namespace Pertexo
namespace Library

variable {ε : Type u} {α β σ : Type v}

theorem bind_eq_ok_iff {x : Except ε α} {f : α -> Except ε β} {b : β} :
    (x >>= f) = Except.ok b ↔ exists a, x = Except.ok a ∧ f a = Except.ok b := by
  cases x with
  | error e => simp [bind, Except.bind]
  | ok a => simp [bind, Except.bind]

theorem exists_of_bind_eq_ok {x : Except ε α} {f : α -> Except ε β} {b : β}
    (h : (x >>= f) = Except.ok b) :
    exists a, x = Except.ok a ∧ f a = Except.ok b :=
  bind_eq_ok_iff.mp h

theorem bind_eq_error_iff {x : Except ε α} {f : α -> Except ε β} {e : ε} :
    (x >>= f) = Except.error e ↔
      x = Except.error e ∨ exists a, x = Except.ok a ∧ f a = Except.error e := by
  cases x with
  | error e' => simp [bind, Except.bind]
  | ok a => simp [bind, Except.bind]

theorem exists_of_map_eq_ok {x : Except ε α} {f : α -> β} {b : β}
    (h : x.map f = Except.ok b) : exists a, x = Except.ok a ∧ f a = b := by
  cases x with
  | error e => cases h
  | ok a =>
      cases h
      exact ⟨a, rfl, rfl⟩

theorem exists_of_isOk {x : Except ε α} (h : x.isOk = true) : exists a, x = Except.ok a := by
  cases x with
  | error e => cases h
  | ok a => exact ⟨a, rfl⟩

theorem pure_eq_ok_iff {a b : α} :
    (pure a : Except ε α) = Except.ok b ↔ a = b := by
  simp [pure, Except.pure]

theorem foldlM_invariant {step : σ -> β -> Except ε σ} {items : List β}
    {start finish : σ} (P : σ -> Prop) (hstart : P start)
    (hstep : forall item, item ∈ items -> forall s s' : σ,
      P s -> step s item = Except.ok s' -> P s')
    (h : items.foldlM step start = Except.ok finish) :
    P finish := by
  induction items generalizing start with
  | nil =>
      rw [List.foldlM_nil, pure_eq_ok_iff] at h
      exact h ▸ hstart
  | cons item rest ih =>
      rw [List.foldlM_cons] at h
      rcases exists_of_bind_eq_ok h with ⟨next, hnext, hrest⟩
      apply ih _ _ hrest
      · exact hstep item (List.mem_cons_self ..) start next hstart hnext
      · intro other hother
        exact hstep other (List.mem_cons_of_mem _ hother)

theorem foldlM_relation {step : σ -> β -> Except ε σ} {items : List β}
    {start finish : σ} (R : σ -> σ -> Prop) (hrefl : forall s, R s s)
    (htrans : forall s t u, R s t -> R t u -> R s u)
    (hstep : forall item, item ∈ items -> forall s s' : σ,
      step s item = Except.ok s' -> R s s')
    (h : items.foldlM step start = Except.ok finish) :
    R start finish := by
  apply foldlM_invariant (R start) (hrefl start) _ h
  intro item hitem s s' hs hnext
  exact htrans _ _ _ hs (hstep item hitem s s' hnext)

/-- What a step leaves of its item, and no step undoes, is left of every item in the end. -/
theorem foldlM_collects {step : σ -> β -> Except ε σ} {items : List β} {start finish : σ}
    (P : β -> σ -> Prop)
    (hkeeps : forall item other s s', step s other = Except.ok s' -> P item s -> P item s')
    (hadds : forall item s s', step s item = Except.ok s' -> P item s')
    (h : items.foldlM step start = Except.ok finish) :
    forall item, item ∈ items -> P item finish := by
  induction items generalizing start with
  | nil =>
      intro item hitem
      cases hitem
  | cons head rest ih =>
      rw [List.foldlM_cons] at h
      rcases exists_of_bind_eq_ok h with ⟨next, hnext, hrest⟩
      have hkept : P head finish := by
        apply foldlM_invariant (P head) (hadds head start next hnext) _ hrest
        intro other _ s s' hs hstep
        exact hkeeps head other s s' hstep hs
      intro item hitem
      rcases List.mem_cons.mp hitem with rfl | hlater
      · exact hkept
      · exact ih hrest item hlater

theorem foldlM_eq_error {step : σ -> β -> Except ε σ} {items : List β} {start : σ} {e : ε}
    (h : items.foldlM step start = Except.error e) :
    exists item before, item ∈ items ∧ step before item = Except.error e := by
  induction items generalizing start with
  | nil => cases h
  | cons item rest ih =>
      rw [List.foldlM_cons] at h
      rcases bind_eq_error_iff.mp h with hfirst | ⟨next, _, hrest⟩
      · exact ⟨item, start, List.mem_cons_self .., hfirst⟩
      · rcases ih hrest with ⟨other, before, hmem, hother⟩
        exact ⟨other, before, List.mem_cons_of_mem _ hmem, hother⟩

theorem foldlM_product {γ : Type v} (step : σ -> γ × β -> Except ε σ) (outer : List γ)
    (inner : List β) (start : σ) :
    (outer.product inner).foldlM step start =
      outer.foldlM (fun s c => inner.foldlM (fun s b => step s (c, b)) s) start := by
  induction outer generalizing start with
  | nil => rfl
  | cons c rest ih =>
      change List.foldlM step start (List.map (Prod.mk c) inner ++ rest.product inner) = _
      rw [List.foldlM_cons, List.foldlM_append, List.foldlM_map]
      apply bind_congr
      exact ih

theorem forM_eq_ok_iff {check : β -> Except ε PUnit} {items : List β} :
    items.forM check = Except.ok PUnit.unit ↔
      forall item, item ∈ items -> check item = Except.ok PUnit.unit := by
  induction items with
  | nil => simp [List.forM, pure_eq_ok_iff]
  | cons item rest ih =>
      change (check item >>= fun _ => rest.forM check) = Except.ok PUnit.unit ↔ _
      rw [bind_eq_ok_iff, List.forall_mem_cons]
      constructor
      · intro h
        rcases h with ⟨_, hitem, hrest⟩
        exact ⟨hitem, ih.mp hrest⟩
      · intro h
        exact ⟨PUnit.unit, h.left, ih.mpr h.right⟩

theorem mapM_eq_ok_iff {f : α -> Except ε β} {items : List α} {results : List β} :
    items.mapM f = Except.ok results ↔
      List.Forall₂ (fun a b => f a = Except.ok b) items results := by
  rw [← List.mapM'_eq_mapM]
  induction items generalizing results with
  | nil =>
      rw [List.mapM'_nil, pure_eq_ok_iff, List.forall₂_nil_left_iff]
      exact eq_comm
  | cons item rest ih =>
      simp only [List.mapM'_cons, bind_eq_ok_iff, pure_eq_ok_iff]
      constructor
      · rintro ⟨b, hb, bs, hbs, rfl⟩
        exact List.Forall₂.cons hb (ih.mp hbs)
      · intro h
        cases h with
        | cons hb hbs => exact ⟨_, hb, _, ih.mpr hbs, rfl⟩

theorem exists_of_mem_right {R : α -> β -> Prop} {items : List α} {others : List β}
    (h : List.Forall₂ R items others) {other : β} (hother : other ∈ others) :
    exists item, item ∈ items ∧ R item other := by
  induction h with
  | nil => cases hother
  | @cons item first rest others hfirst _ ih =>
      rcases List.mem_cons.mp hother with rfl | hrest
      · exact ⟨item, List.mem_cons_self .., hfirst⟩
      · rcases ih hrest with ⟨found, hfound, hsame⟩
        exact ⟨found, List.mem_cons_of_mem _ hfound, hsame⟩

theorem exists_of_mem_left {R : α -> β -> Prop} {items : List α} {others : List β}
    (h : List.Forall₂ R items others) {item : α} (hitem : item ∈ items) :
    exists other, other ∈ others ∧ R item other :=
  exists_of_mem_right h.flip hitem

theorem exists_of_mem_mapM {f : α -> Except ε β} {items : List α} {results : List β}
    (h : items.mapM f = Except.ok results) {b : β} (hb : b ∈ results) :
    exists a, a ∈ items ∧ f a = Except.ok b :=
  exists_of_mem_right (mapM_eq_ok_iff.mp h) hb

theorem exists_of_mem_of_mapM {f : α -> Except ε β} {items : List α} {results : List β}
    (h : items.mapM f = Except.ok results) {a : α} (ha : a ∈ items) :
    exists b, b ∈ results ∧ f a = Except.ok b :=
  exists_of_mem_left (mapM_eq_ok_iff.mp h) ha

end Library
end Pertexo
