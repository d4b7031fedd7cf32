import Mathlib.Data.List.Induction
import Pertexo.Library.Worklists

/-!
# Rooted trees

## Walks

A walk lists the links it takes. Where every vertex is entered by one link at most, and the
root by none, one walk at most leads from the root to a vertex.
-/

namespace Pertexo
namespace Library

section

variable {α : Type u} {β : Type v} {source target : β -> α}

def IsWalk (source target : β -> α) (links : List β) (start : α) : List β -> α -> Prop
  | [], finish => start = finish
  | link :: rest, finish =>
      link ∈ links ∧ source link = start ∧ IsWalk source target links (target link) rest finish

theorem isWalk_concat {links path : List β} {start finish : α} {last : β} :
    IsWalk source target links start (path ++ [last]) finish ↔
      IsWalk source target links start path (source last) ∧ last ∈ links ∧
        target last = finish := by
  induction path generalizing start with
  | nil =>
      constructor
      · rintro ⟨hmem, hsource, hfinish⟩
        exact ⟨hsource.symm, hmem, hfinish⟩
      · rintro ⟨hsource, hmem, hfinish⟩
        exact ⟨hmem, hsource.symm, hfinish⟩
  | cons link rest ih =>
      show (link ∈ links ∧ source link = start ∧
        IsWalk source target links (target link) (rest ++ [last]) finish) ↔ _
      rw [ih]
      constructor
      · rintro ⟨hmem, hsource, hrest, hlast⟩
        exact ⟨⟨hmem, hsource, hrest⟩, hlast⟩
      · rintro ⟨⟨hmem, hsource, hrest⟩, hlast⟩
        exact ⟨hmem, hsource, hrest, hlast⟩

theorem exists_isWalk_iff {links : List β} {start finish : α} :
    (exists path, IsWalk source target links start path finish) ↔
      Relation.ReflTransGen
        (fun before after => (before, after) ∈ links.map fun link => (source link, target link))
        start finish := by
  constructor
  · rintro ⟨path, hpath⟩
    induction path generalizing start with
    | nil =>
        cases hpath
        exact Relation.ReflTransGen.refl
    | cons link rest ih =>
        rcases hpath with ⟨hmem, rfl, hrest⟩
        exact Relation.ReflTransGen.head (List.mem_map.mpr ⟨link, hmem, rfl⟩) (ih hrest)
  · intro h
    induction h with
    | refl => exact ⟨[], rfl⟩
    | tail _ hlink ih =>
        rcases ih with ⟨path, hpath⟩
        rcases List.mem_map.mp hlink with ⟨link, hmem, hends⟩
        cases hends
        exact ⟨path ++ [link], isWalk_concat.mpr ⟨hpath, hmem, rfl⟩⟩

/-- Every vertex is entered by one link at most, and the root by none. -/
structure IsRooted (target : β -> α) (links : List β) (root : α) : Prop where
  entered_once : (links.map target).Nodup
  not_entered : root ∉ links.map target

theorem IsRooted.eq_of_target {links : List β} {root : α} (h : IsRooted target links root)
    {link other : β} (hlink : link ∈ links) (hother : other ∈ links)
    (hsame : target link = target other) : link = other :=
  List.inj_on_of_nodup_map h.entered_once hlink hother hsame

theorem IsRooted.walk_unique {links : List β} {root : α} (h : IsRooted target links root)
    {path other : List β} {finish : α} (hpath : IsWalk source target links root path finish)
    (hother : IsWalk source target links root other finish) : path = other := by
  induction path using List.reverseRecOn generalizing other finish with
  | nil =>
      cases hpath
      rcases List.eq_nil_or_concat other with rfl | ⟨rest, last, rfl⟩
      · rfl
      · rw [List.concat_eq_append] at hother
        rcases isWalk_concat.mp hother with ⟨_, hmem, hlast⟩
        exact absurd (List.mem_map.mpr ⟨last, hmem, hlast⟩) h.not_entered
  | append_singleton path last ih =>
      rcases isWalk_concat.mp hpath with ⟨hbefore, hmem, rfl⟩
      rcases List.eq_nil_or_concat other with rfl | ⟨rest, final, rfl⟩
      · cases hother
        exact absurd (List.mem_map_of_mem hmem) h.not_entered
      · rw [List.concat_eq_append] at hother ⊢
        rcases isWalk_concat.mp hother with ⟨hrest, hfinal, hsame⟩
        rw [h.eq_of_target hfinal hmem hsame] at hrest ⊢
        rw [ih hbefore hrest]

/-- A tree is told by its walks: each vertex ends one of them, and one only. -/
theorem isRooted_of_walks {links : List β} {root : α} (hnodup : links.Nodup)
    (hsources : forall link, link ∈ links ->
      exists path, IsWalk source target links root path (source link))
    (hunique : forall path other finish, IsWalk source target links root path finish ->
      IsWalk source target links root other finish -> path = other) :
    IsRooted target links root where
  entered_once := by
    apply List.Nodup.map_on _ hnodup
    intro link hlink other hother hsame
    rcases hsources link hlink with ⟨path, hpath⟩
    rcases hsources other hother with ⟨rest, hrest⟩
    have hboth := hunique (path ++ [link]) (rest ++ [other]) (target link)
      (isWalk_concat.mpr ⟨hpath, hlink, rfl⟩) (isWalk_concat.mpr ⟨hrest, hother, hsame.symm⟩)
    exact List.singleton_inj.mp (List.append_inj' hboth rfl).right
  not_entered := by
    intro hentered
    rcases List.mem_map.mp hentered with ⟨link, hlink, hroot⟩
    rcases hsources link hlink with ⟨path, hpath⟩
    have hboth := hunique (path ++ [link]) [] root (isWalk_concat.mpr ⟨hpath, hlink, hroot⟩) rfl
    exact List.append_ne_nil_of_right_ne_nil path (List.cons_ne_nil link []) hboth

end

/-!
## Traversals that meet nothing twice
-/

section

variable {α : Type u} [DecidableEq α]

/-- A traversal that gives up at an item it has reached before. -/
def visit (next : α -> List α) : Nat -> List α -> List α -> Option (List α)
  | 0, _, _ => none
  | _ + 1, reached, [] => some reached
  | fuel + 1, reached, item :: pending =>
      if item ∈ reached then none
      else visit next fuel (reached ++ [item]) ((next item).reverse ++ pending)

/-- What has been reached or pended, once each, besides the root along links already followed. -/
structure VisitsOnce (links : List (α × α)) (root : α) (reached pending : List α) : Prop where
  nodup : (reached ++ pending).Nodup
  entered : forall item, item ∈ reached ++ pending ->
    item = root ∨ exists before, before ∈ reached ∧ (before, item) ∈ links

theorem VisitsOnce.step {links : List (α × α)} {root item : α} {reached pending : List α}
    (hrooted : IsRooted Prod.snd links root)
    (h : VisitsOnce links root reached (item :: pending)) :
    VisitsOnce links root (reached ++ [item]) ((followers links item).reverse ++ pending) := by
  have hitem : item ∉ reached := by
    intro hmem
    exact (List.nodup_append.mp h.nodup).right.right item hmem item List.mem_cons_self rfl
  have hfresh : forall next, next ∈ followers links item -> next ∉ reached ++ item :: pending := by
    intro next hnext hmem
    have hlink := mem_followers.mp hnext
    rcases h.entered next hmem with rfl | ⟨before, hbefore, hentered⟩
    · exact hrooted.not_entered (List.mem_map_of_mem hlink)
    · cases hrooted.eq_of_target hentered hlink rfl
      exact hitem hbefore
  have hfollowers : (followers links item).Nodup :=
    (List.filter_sublist.map Prod.snd).nodup hrooted.entered_once
  have hperm : (reached ++ [item] ++ ((followers links item).reverse ++ pending)).Perm
      ((followers links item).reverse ++ (reached ++ item :: pending)) := by
    rw [List.append_cons reached item pending]
    exact List.perm_append_comm_assoc _ _ _
  constructor
  · rw [hperm.nodup_iff, List.nodup_append]
    refine ⟨List.nodup_reverse.mpr hfollowers, h.nodup, ?_⟩
    intro next hnext other hother hsame
    exact hfresh next (List.mem_reverse.mp hnext) (hsame ▸ hother)
  · intro other hother
    rcases List.mem_append.mp (hperm.mem_iff.mp hother) with hnext | hold
    · have hlink := mem_followers.mp (List.mem_reverse.mp hnext)
      exact Or.inr ⟨item, List.mem_append_right _ (List.mem_singleton_self item), hlink⟩
    · rcases h.entered other hold with hroot | ⟨before, hbefore, hlink⟩
      · exact Or.inl hroot
      · exact Or.inr ⟨before, List.mem_append_left _ hbefore, hlink⟩

/-- Under a root nothing is met twice, and giving up at a repetition changes nothing. -/
theorem IsRooted.visit_eq {links : List (α × α)} {root : α}
    (hrooted : IsRooted Prod.snd links root) {fuel : Nat} {reached pending : List α}
    (h : VisitsOnce links root reached pending)
    (hfuel : pending.length + remaining links reached ≤ fuel) :
    visit (followers links) (fuel + 1) reached pending =
      some (traverse (followers links) fuel reached pending) := by
  induction fuel generalizing reached pending with
  | zero =>
      obtain rfl : pending = [] := List.length_eq_zero_iff.mp (by omega)
      rfl
  | succ fuel ih =>
      cases pending with
      | nil => rfl
      | cons item pending =>
          have hitem : item ∉ reached := by
            intro hmem
            exact (List.nodup_append.mp h.nodup).right.right item hmem item List.mem_cons_self rfl
          rw [visit, traverse, if_neg hitem, if_neg hitem]
          apply ih (h.step hrooted)
          have hcount := @remaining_reached _ _ links reached item hitem
          rw [List.length_cons] at hfuel
          rw [List.length_append, List.length_reverse]
          omega

theorem IsRooted.visit_root {links : List (α × α)} {root : α}
    (hrooted : IsRooted Prod.snd links root) :
    visit (followers links) (links.length + 2) [] [root] = some (reach links [root]) := by
  have hstart : VisitsOnce links root [] [root] := by
    constructor
    · exact List.nodup_singleton root
    · intro item hitem
      exact Or.inl (List.mem_singleton.mp hitem)
  have hvisit := hrooted.visit_eq hstart (Nat.add_le_add_left (List.length_filter_le _ _) 1)
  rw [reach, Nat.add_comm links.length]
  show visit (followers links) (1 + 1 + links.length) [] [root] = _
  rw [Nat.add_right_comm]
  exact hvisit

end

end Library
end Pertexo
