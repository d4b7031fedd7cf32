import Mathlib.Data.List.Basic
import Mathlib.Data.List.Nodup
import Mathlib.Data.List.Perm.Subperm
import Mathlib.Logic.Relation

/-!
# Parents in a table

Queries that follow a table's references to itself, and the chains of parents in it.

## Recursive queries

A recursive query starts with its working rows. Each round joins the rows of the
round before, and the query ends with the first round that finds nothing.
-/

namespace Pertexo
namespace Library

section

variable {α : Type u} {join : α -> List α}

def recursiveRound (join : α -> List α) : Nat -> List α -> List α
  | 0, working => working
  | round + 1, working => recursiveRound join round (working.flatMap join)

def recursiveRows (join : α -> List α) : Nat -> List α -> List α
  | 0, _ => []
  | rounds + 1, working => working ++ recursiveRows join rounds (working.flatMap join)

theorem mem_recursiveRows {rounds : Nat} {working : List α} {row : α} :
    row ∈ recursiveRows join rounds working ↔
      exists round, round < rounds ∧ row ∈ recursiveRound join round working := by
  induction rounds generalizing working with
  | zero => simp [recursiveRows]
  | succ rounds ih =>
      rw [recursiveRows, List.mem_append, ih]
      constructor
      · intro h
        rcases h with hfirst | ⟨round, hlt, hmem⟩
        · exact ⟨0, Nat.succ_pos _, hfirst⟩
        · exact ⟨round + 1, Nat.succ_lt_succ hlt, hmem⟩
      · intro h
        rcases h with ⟨round, hlt, hmem⟩
        cases round with
        | zero => exact Or.inl hmem
        | succ round => exact Or.inr ⟨round, Nat.lt_of_succ_lt_succ hlt, hmem⟩

theorem recursiveRound_succ {round : Nat} {working : List α} :
    recursiveRound join (round + 1) working = (recursiveRound join round working).flatMap join := by
  induction round generalizing working with
  | zero => rfl
  | succ round ih =>
      rw [recursiveRound, ih]
      rfl

theorem recursiveRows_nil (rounds : Nat) : recursiveRows join rounds [] = [] := by
  induction rounds with
  | zero => rfl
  | succ rounds ih => exact ih

end

/-!
## Chains of parents

Items with keys, each of which may name a parent by its key. A chain leads from an
item over its parents to an item without one.
-/

section

variable {α : Type u} {κ : Type v}

inductive ParentChain (items : List α) (key : α -> κ) (parent : α -> Option κ) :
    κ -> List α -> Prop where
  | root {a : α} (hmem : a ∈ items) (hroot : parent a = none) :
      ParentChain items key parent (key a) [a]
  | child {a : α} {k : κ} {path : List α} (hmem : a ∈ items) (hparent : parent a = some k)
      (rest : ParentChain items key parent k path) :
      ParentChain items key parent (key a) (a :: path)

variable {items others : List α} {key : α -> κ} {parent : α -> Option κ} {k : κ} {path : List α}

theorem ParentChain.mono (hsub : forall a, a ∈ items -> a ∈ others)
    (h : ParentChain items key parent k path) : ParentChain others key parent k path := by
  induction h with
  | root hmem hroot => exact ParentChain.root (hsub _ hmem) hroot
  | child hmem hparent _ ih => exact ParentChain.child (hsub _ hmem) hparent ih

theorem ParentChain.mem (h : ParentChain items key parent k path) {a : α} (ha : a ∈ path) :
    a ∈ items := by
  induction h with
  | root hmem _ =>
      rw [List.mem_singleton.mp ha]
      exact hmem
  | child hmem _ _ ih =>
      rcases List.mem_cons.mp ha with rfl | hrest
      · exact hmem
      · exact ih hrest

theorem ParentChain.exists_cons (h : ParentChain items key parent k path) :
    exists a rest, path = a :: rest ∧ a ∈ items ∧ key a = k := by
  cases h with
  | root hmem _ => exact ⟨_, [], rfl, hmem, rfl⟩
  | child hmem _ _ => exact ⟨_, _, rfl, hmem, rfl⟩

theorem ParentChain.length_pos (h : ParentChain items key parent k path) : 0 < path.length := by
  rcases h.exists_cons with ⟨a, rest, rfl, _⟩
  exact Nat.succ_pos _

theorem ParentChain.exists_suffix (h : ParentChain items key parent k path) {a : α}
    (ha : a ∈ path) :
    exists before rest, path = before ++ a :: rest ∧
      ParentChain items key parent (key a) (a :: rest) := by
  induction h with
  | root hmem hroot =>
      rw [List.mem_singleton.mp ha]
      exact ⟨[], [], rfl, ParentChain.root hmem hroot⟩
  | @child b k path hmem hparent rest ih =>
      rcases List.mem_cons.mp ha with rfl | hrest
      · exact ⟨[], path, rfl, ParentChain.child hmem hparent rest⟩
      · rcases ih hrest with ⟨before, after, rfl, hchain⟩
        exact ⟨b :: before, after, rfl, hchain⟩

theorem eq_of_key_eq (hkeys : (items.map key).Nodup) {a b : α} (ha : a ∈ items) (hb : b ∈ items)
    (h : key a = key b) : a = b :=
  List.inj_on_of_nodup_map hkeys ha hb h

theorem filter_key [DecidableEq κ] (hkeys : (items.map key).Nodup) {a : α} (ha : a ∈ items) :
    items.filter (fun b => key b == key a) = [a] := by
  induction items with
  | nil => cases ha
  | cons b rest ih =>
      rw [List.map_cons, List.nodup_cons] at hkeys
      rcases List.mem_cons.mp ha with rfl | hrest
      · have hnone : rest.filter (fun b => key b == key a) = [] := by
          rw [List.filter_eq_nil_iff]
          intro b hb hsame
          exact hkeys.left (List.mem_map.mpr ⟨b, hb, beq_iff_eq.mp hsame⟩)
        rw [List.filter_cons, if_pos (beq_self_eq_true _), hnone]
      · have hother : (key b == key a) ≠ true := by
          intro hsame
          rw [beq_iff_eq.mp hsame] at hkeys
          exact hkeys.left (List.mem_map_of_mem hrest)
        rw [List.filter_cons, if_neg hother, ih hkeys.right hrest]

/-- With one item for each key, a key starts one chain at most. -/
theorem ParentChain.unique (hkeys : (items.map key).Nodup)
    (h : ParentChain items key parent k path) {path' : List α}
    (h' : ParentChain items key parent k path') : path = path' := by
  induction h generalizing path' with
  | @root a hmem hroot =>
      generalize hk : key a = k' at h'
      cases h' with
      | root hmem' hroot' =>
          rw [eq_of_key_eq hkeys hmem hmem' hk]
      | child hmem' hparent' _ =>
          rw [eq_of_key_eq hkeys hmem hmem' hk, hparent'] at hroot
          cases hroot
  | @child a parentKey rest hmem hparent _ ih =>
      generalize hk : key a = k' at h'
      cases h' with
      | root hmem' hroot' =>
          rw [eq_of_key_eq hkeys hmem hmem' hk, hroot'] at hparent
          cases hparent
      | child hmem' hparent' hrest' =>
          have hsame := eq_of_key_eq hkeys hmem hmem' hk
          rw [hsame, hparent'] at hparent
          cases hparent
          rw [hsame, ih hrest']

/-- A chain never comes back to a key. -/
theorem ParentChain.nodup (hkeys : (items.map key).Nodup)
    (h : ParentChain items key parent k path) : (path.map key).Nodup := by
  induction h with
  | root _ _ => exact List.nodup_singleton _
  | @child a parentKey path hmem hparent rest ih =>
      rw [List.map_cons, List.nodup_cons]
      refine ⟨?_, ih⟩
      intro hagain
      rcases List.mem_map.mp hagain with ⟨b, hb, hkey⟩
      rcases rest.exists_suffix hb with ⟨before, after, hpath, hchain⟩
      rw [hkey] at hchain
      have hlong := congrArg List.length
        ((ParentChain.child hmem hparent rest).unique hkeys hchain)
      rw [hpath] at hlong
      simp at hlong
      omega

theorem ParentChain.length_le (hkeys : (items.map key).Nodup)
    (h : ParentChain items key parent k path) : path.length ≤ items.length :=
  ((List.Nodup.of_map key (h.nodup hkeys)).subperm fun _ ha => h.mem ha).length_le

/-!
## Steps to a parent
-/

inductive ParentSteps (items : List α) (key : α -> κ) (parent : α -> Option κ) :
    κ -> κ -> Nat -> Prop where
  | here {a : α} (hmem : a ∈ items) : ParentSteps items key parent (key a) (key a) 0
  | up {a : α} {k top : κ} {steps : Nat} (hmem : a ∈ items) (hparent : parent a = some k)
      (rest : ParentSteps items key parent k top steps) :
      ParentSteps items key parent (key a) top (steps + 1)

theorem ParentSteps.exists_rest (hkeys : (items.map key).Nodup) {top : κ} {steps : Nat}
    (hsteps : ParentSteps items key parent k top steps)
    (h : ParentChain items key parent k path) :
    exists before rest, path = before ++ rest ∧ before.length = steps ∧
      ParentChain items key parent top rest := by
  induction hsteps generalizing path with
  | here _ => exact ⟨[], path, rfl, rfl, h⟩
  | @up a parentKey top steps hmem hparent _ ih =>
      generalize hk : key a = k at h
      cases h with
      | root hmem' hroot =>
          rw [← eq_of_key_eq hkeys hmem hmem' hk, hparent] at hroot
          cases hroot
      | child hmem' hparent' hrest =>
          rw [← eq_of_key_eq hkeys hmem hmem' hk, hparent] at hparent'
          cases hparent'
          rcases ih hrest with ⟨before, rest, rfl, hlength, hchain⟩
          exact ⟨_ :: before, rest, rfl, congrArg Nat.succ hlength, hchain⟩

theorem ParentChain.steps {before after : List α} {a : α}
    (h : ParentChain items key parent k (before ++ a :: after)) :
    ParentSteps items key parent k (key a) before.length := by
  induction before generalizing k with
  | nil =>
      cases h with
      | root hmem _ => exact ParentSteps.here hmem
      | child hmem _ _ => exact ParentSteps.here hmem
  | cons first before ih =>
      generalize hpath : first :: before ++ a :: after = path at h
      cases h with
      | root _ _ => simp at hpath
      | child hmem hparent hrest =>
          cases hpath
          exact ParentSteps.up hmem hparent (ih hrest)

/-!
## Changed items
-/

/-- A chain that avoids a key does not see a change at it. -/
theorem ParentChain.of_avoids {m : κ}
    (hsub : forall a, a ∈ items -> key a ≠ m -> a ∈ others)
    (h : ParentChain items key parent k path) (havoids : m ∉ path.map key) :
    ParentChain others key parent k path := by
  induction h with
  | root hmem hroot =>
      rw [List.map_cons, List.mem_cons, not_or] at havoids
      exact ParentChain.root (hsub _ hmem (Ne.symm havoids.left)) hroot
  | child hmem hparent _ ih =>
      rw [List.map_cons, List.mem_cons, not_or] at havoids
      exact ParentChain.child (hsub _ hmem (Ne.symm havoids.left)) hparent (ih havoids.right)

theorem ParentChain.of_changed {m : κ} {tail : List α}
    (hsub : forall a, a ∈ items -> key a ≠ m -> a ∈ others)
    (htail : ParentChain others key parent m tail)
    (h : ParentChain items key parent k path) (hover : m ∈ path.map key) :
    exists before a after, path = before ++ a :: after ∧ key a = m ∧
      ParentChain others key parent k (before ++ tail) := by
  induction h with
  | @root a hmem hroot =>
      have hkey : m = key a := by simpa using hover
      exact ⟨[], a, [], rfl, hkey.symm, hkey ▸ htail⟩
  | @child a parentKey rest hmem hparent hrest ih =>
      by_cases hkey : key a = m
      · exact ⟨[], a, rest, rfl, hkey, hkey ▸ htail⟩
      · have hlater : m ∈ rest.map key := by
          rcases List.mem_cons.mp hover with hfirst | hlater
          · exact absurd hfirst.symm hkey
          · exact hlater
        rcases ih hlater with ⟨before, found, after, rfl, hfound, hchain⟩
        exact ⟨a :: before, found, after, rfl, hfound,
          ParentChain.child (hsub _ hmem hkey) hparent hchain⟩

theorem ParentChain.map {f : α -> α} (hkey : forall a, a ∈ items -> key (f a) = key a)
    (hparent : forall a, a ∈ items -> parent (f a) = parent a)
    (h : ParentChain items key parent k path) :
    ParentChain (items.map f) key parent k (path.map f) := by
  induction h with
  | @root a hmem hroot =>
      rw [← hkey a hmem]
      exact ParentChain.root (List.mem_map_of_mem hmem) ((hparent a hmem).trans hroot)
  | @child a parentKey rest hmem hnext _ ih =>
      rw [← hkey a hmem]
      exact ParentChain.child (List.mem_map_of_mem hmem) ((hparent a hmem).trans hnext) ih

theorem ParentChain.avoids_childless {m : κ} (hne : k ≠ m)
    (hchildless : forall a, a ∈ items -> parent a ≠ some m)
    (h : ParentChain items key parent k path) : m ∉ path.map key := by
  induction h with
  | root _ _ => simpa using Ne.symm hne
  | @child a parentKey rest hmem hparent _ ih =>
      rw [List.map_cons, List.mem_cons, not_or]
      refine ⟨Ne.symm hne, ih ?_⟩
      intro hsame
      rw [hsame] at hparent
      exact hchildless a hmem hparent

/-- Where every item has a chain, nobody is above itself. -/
theorem not_transGen_self (hkeys : (items.map key).Nodup)
    (hchains : forall a, a ∈ items -> exists path, ParentChain items key parent (key a) path)
    (k : κ) :
    ¬ Relation.TransGen (fun lower upper => exists a, a ∈ items ∧ key a = lower ∧
      parent a = some upper) k k := by
  have hshorter : forall lower upper, Relation.TransGen (fun lower upper =>
      exists a, a ∈ items ∧ key a = lower ∧ parent a = some upper) lower upper ->
      forall path, ParentChain items key parent lower path ->
        exists rest, ParentChain items key parent upper rest ∧ rest.length < path.length := by
    intro lower upper h
    have hone : forall lower upper, (exists a, a ∈ items ∧ key a = lower ∧
        parent a = some upper) -> forall path, ParentChain items key parent lower path ->
        exists rest, ParentChain items key parent upper rest ∧ rest.length < path.length := by
      rintro _ upper ⟨a, hmem, rfl, hparent⟩ path hchain
      generalize hk : key a = k at hchain
      cases hchain with
      | root hmem' hroot =>
          rw [← eq_of_key_eq hkeys hmem hmem' hk, hparent] at hroot
          cases hroot
      | child hmem' hparent' hrest =>
          rw [← eq_of_key_eq hkeys hmem hmem' hk, hparent] at hparent'
          cases hparent'
          exact ⟨_, hrest, Nat.lt_succ_self _⟩
    induction h with
    | single hstep => exact hone _ _ hstep
    | tail _ hstep ih =>
        intro path hchain
        rcases ih path hchain with ⟨middle, hmiddle, hlt⟩
        rcases hone _ _ hstep middle hmiddle with ⟨rest, hrest, hlt'⟩
        exact ⟨rest, hrest, Nat.lt_trans hlt' hlt⟩
  intro hcycle
  have hstart : exists a, a ∈ items ∧ key a = k := by
    rcases Relation.TransGen.head'_iff.mp hcycle with ⟨_, ⟨a, hmem, hkey, _⟩, _⟩
    exact ⟨a, hmem, hkey⟩
  rcases hstart with ⟨a, hmem, rfl⟩
  rcases hchains a hmem with ⟨path, hpath⟩
  rcases hshorter _ _ hcycle path hpath with ⟨rest, hrest, hlt⟩
  rw [hrest.unique hkeys hpath] at hlt
  exact Nat.lt_irrefl _ hlt

end

end Library
end Pertexo
