import Mathlib.Data.List.Nodup
import Mathlib.Data.List.Perm.Basic

/-!
# Keyed collections

## Insertion-ordered maps

A keyed collection is a list of records in which no two records share a key.
Setting a record replaces the record with the same key in place, and appends
it when the key is new, so that iteration follows the first insertion.
-/

namespace Pertexo
namespace Library

structure Keyed (α : Type u) {κ : Type v} (key : α -> κ) where
  items : List α
  nodup : (items.map key).Nodup

namespace Keyed

variable {α : Type u} {κ : Type v} {key : α -> κ}

def empty : Keyed α key :=
  { items := [], nodup := List.nodup_nil }

def filter (m : Keyed α key) (p : α -> Bool) : Keyed α key :=
  { items := m.items.filter p
    nodup := (List.filter_sublist.map key).nodup m.nodup }

instance : Membership α (Keyed α key) where
  mem m a := a ∈ m.items

theorem mem_def {m : Keyed α key} {a : α} : a ∈ m ↔ a ∈ m.items :=
  Iff.rfl

@[simp] theorem not_mem_empty (a : α) : a ∉ (empty : Keyed α key) := by
  simp [mem_def, empty]

@[simp] theorem mem_filter {m : Keyed α key} {p : α -> Bool} {a : α} :
    a ∈ m.filter p ↔ a ∈ m ∧ p a = true :=
  List.mem_filter

theorem eq_of_mem_of_key_eq {m : Keyed α key} {a b : α}
    (ha : a ∈ m) (hb : b ∈ m) (hkey : key a = key b) : a = b :=
  List.inj_on_of_nodup_map m.nodup ha hb hkey

variable [DecidableEq κ]

def get? (m : Keyed α key) (k : κ) : Option α :=
  m.items.find? fun a => key a = k

def has (m : Keyed α key) (k : κ) : Bool :=
  (m.get? k).isSome

def setItems (key : α -> κ) (a : α) : List α -> List α
  | [] => [a]
  | b :: rest => if key b = key a then a :: rest else b :: setItems key a rest

theorem keys_setItems (a : α) (items : List α) :
    (setItems key a items).map key =
      if key a ∈ items.map key then items.map key
      else items.map key ++ [key a] := by
  induction items with
  | nil => simp [setItems]
  | cons b rest ih =>
      by_cases hkey : key b = key a
      · simp [setItems, hkey]
      · have hkey' : ¬ key a = key b := fun h => hkey h.symm
        by_cases hmem : key a ∈ rest.map key
        · rw [if_pos hmem] at ih
          have hcons : key a ∈ (b :: rest).map key := List.mem_cons_of_mem _ hmem
          rw [if_pos hcons]
          simp [setItems, hkey, ih]
        · have hnot : ¬ key a ∈ (b :: rest).map key := by
            simpa [hkey'] using hmem
          rw [if_neg hmem] at ih
          rw [if_neg hnot]
          simp [setItems, hkey, ih]

theorem nodup_setItems (a : α) {items : List α}
    (h : (items.map key).Nodup) : ((setItems key a items).map key).Nodup := by
  rw [keys_setItems]
  by_cases hmem : key a ∈ items.map key
  · rw [if_pos hmem]
    exact h
  · rw [if_neg hmem]
    exact List.nodup_append.mpr
      ⟨h, List.nodup_singleton _, by
        intro x hx y hy hxy
        rw [List.mem_singleton.mp hy] at hxy
        exact hmem (hxy ▸ hx)⟩

def set (m : Keyed α key) (a : α) : Keyed α key :=
  { items := setItems key a m.items
    nodup := nodup_setItems a m.nodup }

def ofList (items : List α) : Keyed α key :=
  items.foldl set empty

/-!
## Lookup

By uniqueness of keys, membership of a record is the same as being found under
its own key.
-/

theorem mem_of_get? {m : Keyed α key} {k : κ} {a : α}
    (h : m.get? k = some a) : a ∈ m :=
  List.mem_of_find?_eq_some h

theorem key_of_get? {m : Keyed α key} {k : κ} {a : α}
    (h : m.get? k = some a) : key a = k := by
  simpa using List.find?_some h

theorem get?_of_mem {m : Keyed α key} {a : α} (h : a ∈ m) :
    m.get? (key a) = some a := by
  cases hget : m.get? (key a) with
  | none =>
      have hnone := List.find?_eq_none.mp hget a h
      simp at hnone
  | some b =>
      have hb := mem_of_get? hget
      rw [eq_of_mem_of_key_eq hb h (key_of_get? hget)]

theorem get?_eq_some_iff {m : Keyed α key} {k : κ} {a : α} :
    m.get? k = some a ↔ a ∈ m ∧ key a = k := by
  constructor
  · intro h
    exact ⟨mem_of_get? h, key_of_get? h⟩
  · rintro ⟨hmem, rfl⟩
    exact get?_of_mem hmem

theorem get?_eq_none_iff {m : Keyed α key} {k : κ} :
    m.get? k = none ↔ forall a, a ∈ m -> key a ≠ k := by
  simp [get?, List.find?_eq_none, mem_def]

theorem has_iff {m : Keyed α key} {k : κ} :
    m.has k = true ↔ exists a, a ∈ m ∧ key a = k := by
  simp [has, Option.isSome_iff_exists, get?_eq_some_iff]

theorem get?_filter (m : Keyed α key) (p : α -> Bool) (k : κ) :
    (m.filter p).get? k = (m.get? k).filter p := by
  apply Option.ext
  intro b
  rw [Option.filter_eq_some_iff, get?_eq_some_iff, get?_eq_some_iff, mem_filter]
  constructor
  · intro h
    exact ⟨⟨h.left.left, h.right⟩, h.left.right⟩
  · intro h
    exact ⟨⟨h.left.left, h.right⟩, h.left.right⟩

@[simp] theorem get?_empty (k : κ) : (empty : Keyed α key).get? k = none := by
  rfl

theorem mem_setItems {items : List α} (h : (items.map key).Nodup) (a b : α) :
    b ∈ setItems key a items ↔ b = a ∨ (b ∈ items ∧ key b ≠ key a) := by
  induction items with
  | nil => simp [setItems]
  | cons c rest ih =>
      have hrest : (rest.map key).Nodup := (List.nodup_cons.mp h).right
      have hc : key c ∉ rest.map key := (List.nodup_cons.mp h).left
      by_cases hkey : key c = key a
      · have hne : forall x, x ∈ rest -> key x ≠ key a := by
          intro x hx heq
          exact hc (hkey ▸ heq ▸ List.mem_map_of_mem hx)
        simp only [setItems, if_pos hkey, List.mem_cons]
        constructor
        · rintro (rfl | hb)
          · exact Or.inl rfl
          · exact Or.inr ⟨Or.inr hb, hne b hb⟩
        · rintro (rfl | ⟨rfl | hb, hbne⟩)
          · exact Or.inl rfl
          · exact absurd hkey hbne
          · exact Or.inr hb
      · simp only [setItems, if_neg hkey, List.mem_cons, ih hrest]
        constructor
        · rintro (rfl | rfl | ⟨hb, hbne⟩)
          · exact Or.inr ⟨Or.inl rfl, hkey⟩
          · exact Or.inl rfl
          · exact Or.inr ⟨Or.inr hb, hbne⟩
        · rintro (rfl | ⟨rfl | hb, hbne⟩)
          · exact Or.inr (Or.inl rfl)
          · exact Or.inl rfl
          · exact Or.inr (Or.inr ⟨hb, hbne⟩)

@[simp] theorem mem_set {m : Keyed α key} {a b : α} :
    b ∈ m.set a ↔ b = a ∨ (b ∈ m ∧ key b ≠ key a) :=
  mem_setItems m.nodup a b

theorem get?_set_self (m : Keyed α key) (a : α) :
    (m.set a).get? (key a) = some a :=
  get?_eq_some_iff.mpr ⟨mem_set.mpr (Or.inl rfl), rfl⟩

theorem get?_set_of_ne (m : Keyed α key) {a : α} {k : κ} (h : k ≠ key a) :
    (m.set a).get? k = m.get? k := by
  apply Option.ext
  intro b
  rw [get?_eq_some_iff, get?_eq_some_iff, mem_set]
  constructor
  · rintro ⟨rfl | ⟨hmem, _⟩, hk⟩
    · exact absurd hk.symm h
    · exact ⟨hmem, hk⟩
  · rintro ⟨hmem, rfl⟩
    exact ⟨Or.inr ⟨hmem, h⟩, rfl⟩

theorem get?_set (m : Keyed α key) (a : α) (k : κ) :
    (m.set a).get? k = if k = key a then some a else m.get? k := by
  by_cases h : k = key a
  · rw [if_pos h, h, get?_set_self]
  · rw [if_neg h, get?_set_of_ne m h]

theorem countP_setItems (p : α -> Bool) {items : List α} (h : (items.map key).Nodup) {a old : α}
    (hold : old ∈ items) (hkey : key old = key a) :
    (setItems key a items).countP p + (if p old then 1 else 0) =
      items.countP p + (if p a then 1 else 0) := by
  induction items with
  | nil => cases hold
  | cons b rest ih =>
      rw [List.map_cons, List.nodup_cons] at h
      rcases List.mem_cons.mp hold with rfl | hrest
      · rw [setItems, if_pos hkey, List.countP_cons, List.countP_cons]
        omega
      · have hne : key b ≠ key a := by
          intro hsame
          apply h.left
          rw [hsame, ← hkey]
          exact List.mem_map_of_mem hrest
        rw [setItems, if_neg hne, List.countP_cons, List.countP_cons]
        have hcount := ih h.right hrest
        omega

theorem countP_set (p : α -> Bool) {m : Keyed α key} {a old : α} (hold : old ∈ m)
    (hkey : key old = key a) :
    (m.set a).items.countP p + (if p old then 1 else 0) =
      m.items.countP p + (if p a then 1 else 0) :=
  countP_setItems p m.nodup hold hkey

/-!
## Collections built from lists

A list without repeated keys is its own keyed collection.
-/

theorem foldl_set_items {items : List α} {m : Keyed α key}
    (h : ((m.items ++ items).map key).Nodup) :
    (items.foldl set m).items = m.items ++ items := by
  induction items generalizing m with
  | nil => simp
  | cons a rest ih =>
      have hset : (m.set a).items = m.items ++ [a] := by
        have hnew : key a ∉ m.items.map key := by
          intro hmem
          rw [List.map_append, List.nodup_append] at h
          exact h.right.right _ hmem _ (List.mem_cons_self ..) rfl
        clear ih h
        show setItems key a m.items = m.items ++ [a]
        have aux : forall xs : List α, key a ∉ xs.map key ->
            setItems key a xs = xs ++ [a] := by
          intro xs hxs
          induction xs with
          | nil => rfl
          | cons x xs ih =>
              have hx : ¬ key x = key a := by
                intro heq
                exact hxs (heq ▸ List.mem_cons_self ..)
              have htail : key a ∉ xs.map key := by
                intro hmem
                exact hxs (List.mem_cons_of_mem _ hmem)
              simp [setItems, hx, ih htail]
        exact aux m.items hnew
      rw [List.foldl_cons, ih]
      · rw [hset, List.append_assoc]
        rfl
      · rw [hset, List.append_assoc]
        exact h

theorem set_items_of_fresh {m : Keyed α key} {a : α} (h : forall b, b ∈ m -> key b ≠ key a) :
    (m.set a).items = m.items ++ [a] := by
  apply @foldl_set_items _ _ _ _ [a]
  rw [List.map_append, List.nodup_append]
  refine ⟨m.nodup, List.nodup_singleton _, ?_⟩
  intro k hk other hother
  rcases List.mem_map.mp hk with ⟨b, hb, rfl⟩
  rw [List.mem_singleton.mp hother]
  exact h b hb

theorem ofList_items {items : List α} (h : (items.map key).Nodup) :
    (ofList items : Keyed α key).items = items := by
  have hnew : (((empty : Keyed α key).items ++ items).map key).Nodup := by
    simpa [empty] using h
  simpa [ofList, empty] using foldl_set_items hnew

theorem mem_ofList {items : List α} (h : (items.map key).Nodup) {a : α} :
    a ∈ (ofList items : Keyed α key) ↔ a ∈ items := by
  rw [mem_def, ofList_items h]

theorem mem_of_mem_foldl_set {items : List α} {m : Keyed α key} {a : α}
    (h : a ∈ items.foldl set m) : a ∈ m ∨ a ∈ items := by
  induction items generalizing m with
  | nil => exact Or.inl h
  | cons b rest ih =>
      rcases ih h with hset | hrest
      · rcases mem_set.mp hset with rfl | ⟨hmem, _⟩
        · exact Or.inr (List.mem_cons_self ..)
        · exact Or.inl hmem
      · exact Or.inr (List.mem_cons_of_mem _ hrest)

theorem mem_of_mem_ofList {items : List α} {a : α}
    (h : a ∈ (ofList items : Keyed α key)) : a ∈ items := by
  rcases mem_of_mem_foldl_set h with hempty | hmem
  · exact absurd hempty (not_mem_empty a)
  · exact hmem

theorem exists_get?_ofList {items : List α} {a : α} (h : a ∈ items) :
    exists b, (ofList items : Keyed α key).get? (key a) = some b := by
  have hfold : forall (items : List α) (m : Keyed α key), (a ∈ items ∨ m.has (key a) = true) ->
      (items.foldl set m).has (key a) = true := by
    intro items
    induction items with
    | nil =>
        intro m hmem
        rcases hmem with hmem | hhas
        · cases hmem
        · exact hhas
    | cons b rest ih =>
        intro m hmem
        apply ih
        by_cases hkey : key a = key b
        · apply Or.inr
          exact has_iff.mpr ⟨b, mem_set.mpr (Or.inl rfl), hkey.symm⟩
        · rcases hmem with hmem | hhas
          · rcases List.mem_cons.mp hmem with rfl | hrest
            · exact absurd rfl hkey
            · exact Or.inl hrest
          · rcases has_iff.mp hhas with ⟨other, hother, hsame⟩
            apply Or.inr
            refine has_iff.mpr ⟨other, mem_set.mpr (Or.inr ⟨hother, ?_⟩), hsame⟩
            rw [hsame]
            exact hkey
  have hhas : (ofList items : Keyed α key).has (key a) = true := hfold items empty (Or.inl h)
  rcases has_iff.mp hhas with ⟨b, hb, hkey⟩
  exact ⟨b, get?_eq_some_iff.mpr ⟨hb, hkey⟩⟩

end Keyed

end Library
end Pertexo
