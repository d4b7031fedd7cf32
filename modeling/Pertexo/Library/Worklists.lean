import Mathlib.Data.List.Nodup
import Mathlib.Logic.Relation

/-!
# Worklists

A traversal takes the last pending item, and pends what follows it unless the item has
been reached before. Pending items are kept with the last one first.
-/

namespace Pertexo
namespace Library

section

variable {α : Type u} [DecidableEq α]

/-- What follows an item over a list of links. -/
def followers (links : List (α × α)) (item : α) : List α :=
  (links.filter fun link => link.fst == item).map Prod.snd

theorem mem_followers {links : List (α × α)} {item next : α} :
    next ∈ followers links item ↔ (item, next) ∈ links := by
  rw [followers, List.mem_map]
  constructor
  · intro h
    rcases h with ⟨⟨source, target⟩, hlink, rfl⟩
    rcases List.mem_filter.mp hlink with ⟨hmem, hsource⟩
    rw [← beq_iff_eq.mp hsource]
    exact hmem
  · intro h
    exact ⟨(item, next), List.mem_filter.mpr ⟨h, beq_self_eq_true _⟩, rfl⟩

def traverse (next : α -> List α) : Nat -> List α -> List α -> List α
  | 0, reached, _ => reached
  | _ + 1, reached, [] => reached
  | fuel + 1, reached, item :: pending =>
      if item ∈ reached then traverse next fuel reached pending
      else traverse next fuel (reached ++ [item]) ((next item).reverse ++ pending)

/-- Every link is pended once at most. -/
def reach (links : List (α × α)) (start : List α) : List α :=
  traverse (followers links) (start.length + links.length) [] start.reverse

/-!
## What a traversal reaches
-/

variable {next : α -> List α}

theorem nodup_traverse {fuel : Nat} {reached pending : List α} (h : reached.Nodup) :
    (traverse next fuel reached pending).Nodup := by
  induction fuel generalizing reached pending with
  | zero => exact h
  | succ fuel ih =>
      cases pending with
      | nil => exact h
      | cons item pending =>
          rw [traverse]
          split
          · exact ih h
          · next hnew =>
            apply ih
            rw [← List.concat_eq_append]
            exact List.Nodup.concat hnew h

theorem traverse_sound {P : α -> Prop} (hnext : forall item other, P item -> other ∈ next item ->
      P other) {fuel : Nat} {reached pending : List α}
    (hreached : forall item, item ∈ reached -> P item)
    (hpending : forall item, item ∈ pending -> P item) :
    forall item, item ∈ traverse next fuel reached pending -> P item := by
  induction fuel generalizing reached pending with
  | zero => exact hreached
  | succ fuel ih =>
      cases pending with
      | nil => exact hreached
      | cons item pending =>
          have hitem := hpending item (List.mem_cons_self ..)
          have hrest : forall other, other ∈ pending -> P other :=
            fun other hother => hpending other (List.mem_cons_of_mem _ hother)
          rw [traverse]
          split
          · exact ih hreached hrest
          · apply ih
            · intro other hother
              rcases List.mem_append.mp hother with hold | hnew
              · exact hreached other hold
              · rw [List.mem_singleton.mp hnew]
                exact hitem
            · intro other hother
              rcases List.mem_append.mp hother with hfollows | hlater
              · exact hnext item other hitem (List.mem_reverse.mp hfollows)
              · exact hrest other hlater

/-- The links that have not been followed yet. -/
def remaining (links : List (α × α)) (reached : List α) : Nat :=
  (links.filter fun link => !reached.contains link.fst).length

theorem remaining_reached {links : List (α × α)} {reached : List α} {item : α}
    (hnew : item ∉ reached) :
    remaining links reached =
      remaining links (reached ++ [item]) + (followers links item).length := by
  induction links with
  | nil => rfl
  | cons link links ih =>
      rcases link with ⟨source, target⟩
      simp only [remaining, followers, List.filter_cons, List.length_map] at ih ⊢
      by_cases hsame : source = item
      · subst hsame
        simp [hnew] at ih ⊢
        omega
      · by_cases hold : source ∈ reached
        · simpa [hsame, hold] using ih
        · simp [hsame, hold] at ih ⊢
          omega

/-- With enough fuel a traversal is closed under its links. -/
theorem traverse_closed {links : List (α × α)} {fuel : Nat} {reached pending : List α}
    (hfuel : pending.length + remaining links reached ≤ fuel)
    (hclosed : forall item other, item ∈ reached -> (item, other) ∈ links ->
      other ∈ reached ∨ other ∈ pending) :
    let found := traverse (followers links) fuel reached pending
    (forall item, item ∈ reached ∨ item ∈ pending -> item ∈ found) ∧
      forall item other, item ∈ found -> (item, other) ∈ links -> other ∈ found := by
  induction fuel generalizing reached pending with
  | zero =>
      obtain rfl : pending = [] := List.length_eq_zero_iff.mp (by omega)
      refine ⟨fun item hitem => hitem.elim id (fun hnone => nomatch hnone), ?_⟩
      intro item other hitem hlink
      exact (hclosed item other hitem hlink).elim id (fun hnone => nomatch hnone)
  | succ fuel ih =>
      cases pending with
      | nil =>
          refine ⟨fun item hitem => hitem.elim id (fun hnone => nomatch hnone), ?_⟩
          intro item other hitem hlink
          exact (hclosed item other hitem hlink).elim id (fun hnone => nomatch hnone)
      | cons item pending =>
          rw [List.length_cons] at hfuel
          rw [traverse]
          split
          · next hold =>
            have hagain := @ih reached pending (by omega) (by
              intro source other hsource hlink
              rcases hclosed source other hsource hlink with hreached | hpending
              · exact Or.inl hreached
              · rcases List.mem_cons.mp hpending with rfl | hlater
                · exact Or.inl hold
                · exact Or.inr hlater)
            refine ⟨fun other hother => hagain.left other ?_, hagain.right⟩
            rcases hother with hreached | hpending
            · exact Or.inl hreached
            · rcases List.mem_cons.mp hpending with rfl | hlater
              · exact Or.inl hold
              · exact Or.inr hlater
          · next hnew =>
            have hcount := @remaining_reached _ _ links reached item hnew
            have hagain := @ih (reached ++ [item]) ((followers links item).reverse ++ pending) (by
              rw [List.length_append, List.length_reverse]
              omega) (by
              intro source other hsource hlink
              rcases List.mem_append.mp hsource with hreached | hitem
              · rcases hclosed source other hreached hlink with hdone | hpending
                · exact Or.inl (List.mem_append_left _ hdone)
                · rcases List.mem_cons.mp hpending with rfl | hlater
                  · exact Or.inl (List.mem_append_right _ (List.mem_singleton_self _))
                  · exact Or.inr (List.mem_append_right _ hlater)
              · rw [List.mem_singleton.mp hitem] at hlink
                exact Or.inr (List.mem_append_left _
                  (List.mem_reverse.mpr (mem_followers.mpr hlink))))
            refine ⟨fun other hother => hagain.left other ?_, hagain.right⟩
            rcases hother with hreached | hpending
            · exact Or.inl (List.mem_append_left _ hreached)
            · rcases List.mem_cons.mp hpending with rfl | hlater
              · exact Or.inl (List.mem_append_right _ (List.mem_singleton_self _))
              · exact Or.inr (List.mem_append_right _ hlater)

/-- A traversal reaches exactly what its links lead to. -/
theorem mem_reach {links : List (α × α)} {start : List α} {item : α} :
    item ∈ reach links start ↔
      exists first, first ∈ start ∧
        Relation.ReflTransGen (fun source target => (source, target) ∈ links) first item := by
  rw [reach]
  constructor
  · apply traverse_sound (P := fun item => exists first, first ∈ start ∧
      Relation.ReflTransGen (fun source target => (source, target) ∈ links) first item)
    · intro source other hsource hother
      rcases hsource with ⟨first, hfirst, hpath⟩
      exact ⟨first, hfirst, hpath.tail (mem_followers.mp hother)⟩
    · intro other hother
      cases hother
    · intro other hother
      exact ⟨other, List.mem_reverse.mp hother, Relation.ReflTransGen.refl⟩
  · intro h
    rcases h with ⟨first, hfirst, hpath⟩
    have hclosed := @traverse_closed _ _ links (start.length + links.length) [] start.reverse (by
      rw [List.length_reverse]
      exact Nat.add_le_add_left (List.length_filter_le _ _) _) (fun _ _ hnone => nomatch hnone)
    induction hpath with
    | refl => exact hclosed.left first (Or.inr (List.mem_reverse.mpr hfirst))
    | tail _ hlink ih => exact hclosed.right _ _ ih hlink

theorem mem_reach_congr {links others : List (α × α)} {start first : List α}
    (hlinks : forall link, link ∈ links ↔ link ∈ others)
    (hstart : forall item, item ∈ start ↔ item ∈ first) {item : α} :
    item ∈ reach links start ↔ item ∈ reach others first := by
  simp only [mem_reach, hlinks, hstart]

theorem mem_of_mem_reach {links : List (α × α)} {start items : List α}
    (hstart : forall item, item ∈ start -> item ∈ items)
    (hlinks : forall source target, (source, target) ∈ links -> target ∈ items) {item : α}
    (h : item ∈ reach links start) : item ∈ items := by
  rcases mem_reach.mp h with ⟨first, hfirst, hpath⟩
  cases hpath with
  | refl => exact hstart _ hfirst
  | tail _ hlink => exact hlinks _ _ hlink

theorem nodup_reach (links : List (α × α)) (start : List α) : (reach links start).Nodup :=
  nodup_traverse List.nodup_nil

end

end Library
end Pertexo
