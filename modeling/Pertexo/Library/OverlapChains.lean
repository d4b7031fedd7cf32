import Mathlib.Data.Set.Insert
import Mathlib.Logic.Relation
import Mathlib.Order.MinMax

/-!
# Chains of overlapping spans

## Chains

Two spans of a set are linked when overlapping spans of the set lead from one
to the other. A chain reaches over all spans that are linked with one of them.
-/

namespace Pertexo
namespace Library

structure Span (α : Type) where
  start : α
  stop : α
deriving DecidableEq, Repr

section

variable {α : Type} [LinearOrder α]

def Span.Overlaps (left right : Span α) : Prop :=
  left.start < right.stop ∧ right.start < left.stop

structure Span.Within (inner outer : Span α) : Prop where
  start : outer.start ≤ inner.start
  stop : inner.stop ≤ outer.stop

theorem Span.Within.refl (span : Span α) : span.Within span :=
  ⟨le_refl _, le_refl _⟩

theorem Span.Within.trans {inner middle outer : Span α} (h : inner.Within middle)
    (h' : middle.Within outer) : inner.Within outer :=
  ⟨h'.start.trans h.start, h.stop.trans h'.stop⟩

theorem Span.Overlaps.of_within {left right wideLeft wideRight : Span α}
    (h : left.Overlaps right) (hleft : left.Within wideLeft) (hright : right.Within wideRight) :
    wideLeft.Overlaps wideRight :=
  ⟨(hleft.start.trans_lt h.left).trans_le hright.stop,
    (hright.start.trans_lt h.right).trans_le hleft.stop⟩

def IsLinked (spans : Set (Span α)) : Span α -> Span α -> Prop :=
  Relation.ReflTransGen fun left right => right ∈ spans ∧ left.Overlaps right

/-- The least span over all spans that are linked with one of the set. -/
structure IsChain (spans : Set (Span α)) (chain : Span α) : Prop where
  linked : exists origin, origin ∈ spans ∧
    (forall span, IsLinked spans origin span -> span.Within chain) ∧
    (exists span, IsLinked spans origin span ∧ span.start = chain.start) ∧
    exists span, IsLinked spans origin span ∧ span.stop = chain.stop

structure AreChains (spans : Set (Span α)) (chains : List (Span α)) : Prop where
  least : forall chain, chain ∈ chains -> IsChain spans chain
  covered : forall span, span ∈ spans -> exists chain, chain ∈ chains ∧ span.Within chain
  ordered : chains.Pairwise fun left right => left.stop ≤ right.start

variable {spans more : Set (Span α)}

theorem IsLinked.mono {left right : Span α} (h : IsLinked spans left right)
    (hsubset : spans ⊆ more) : IsLinked more left right :=
  h.lift id fun _ _ hstep => ⟨hsubset hstep.left, hstep.right⟩

theorem IsLinked.mem {left right : Span α} (h : IsLinked spans left right)
    (hleft : left ∈ spans) : right ∈ spans := by
  induction h with
  | refl => exact hleft
  | tail _ hstep _ => exact hstep.left

theorem IsLinked.of_union {left right : Span α} (h : IsLinked (spans ∪ more) left right)
    (hleft : left ∈ spans)
    (hapart : forall span, span ∈ spans -> forall other, other ∈ more -> ¬ span.Overlaps other) :
    IsLinked spans left right := by
  induction h with
  | refl => exact Relation.ReflTransGen.refl
  | tail _ hstep ih =>
      rcases hstep with ⟨hmem | hother, hoverlaps⟩
      · exact Relation.ReflTransGen.tail ih ⟨hmem, hoverlaps⟩
      · exact absurd hoverlaps (hapart _ (ih.mem hleft) _ hother)

theorem IsChain.union {chain : Span α} (h : IsChain spans chain)
    (hapart : forall span, span ∈ spans -> forall other, other ∈ more -> ¬ span.Overlaps other) :
    IsChain (spans ∪ more) chain := by
  rcases h.linked with ⟨origin, horigin, hwithin, ⟨first, hfirst, hstart⟩, last, hlast, hstop⟩
  refine ⟨origin, Or.inl horigin, ?_, ⟨first, ?_, hstart⟩, last, ?_, hstop⟩
  · intro span hlinked
    exact hwithin span (hlinked.of_union horigin hapart)
  · exact hfirst.mono Set.subset_union_left
  · exact hlast.mono Set.subset_union_left

theorem AreChains.append {first second : List (Span α)} (h : AreChains spans first)
    (h' : AreChains more second)
    (hbefore : forall span, span ∈ spans -> forall other, other ∈ more ->
      span.stop ≤ other.start)
    (hordered : forall left, left ∈ first -> forall right, right ∈ second ->
      left.stop ≤ right.start) : AreChains (spans ∪ more) (first ++ second) where
  least := by
    intro chain hchain
    rcases List.mem_append.mp hchain with hfirst | hsecond
    · apply (h.least chain hfirst).union
      intro span hspan other hother hoverlaps
      exact absurd hoverlaps.right (not_lt.mpr (hbefore span hspan other hother))
    · rw [Set.union_comm]
      apply (h'.least chain hsecond).union
      intro span hspan other hother hoverlaps
      exact absurd hoverlaps.left (not_lt.mpr (hbefore other hother span hspan))
  covered := by
    rintro span (hspan | hspan)
    · rcases h.covered span hspan with ⟨chain, hchain, hwithin⟩
      exact ⟨chain, List.mem_append_left _ hchain, hwithin⟩
    · rcases h'.covered span hspan with ⟨chain, hchain, hwithin⟩
      exact ⟨chain, List.mem_append_right _ hchain, hwithin⟩
  ordered := List.pairwise_append.mpr ⟨h.ordered, h'.ordered, hordered⟩

/-- Spans within others of the set do not change its chains. -/
theorem AreChains.of_within {chains : List (Span α)} (h : AreChains spans chains)
    (hsubset : spans ⊆ more)
    (hwithin : forall span, span ∈ more -> exists wide, wide ∈ spans ∧ span.Within wide) :
    AreChains more chains where
  least := by
    intro chain hchain
    rcases (h.least chain hchain).linked with
      ⟨origin, horigin, hall, ⟨first, hfirst, hstart⟩, last, hlast, hstop⟩
    refine ⟨origin, hsubset horigin, ?_, ⟨first, hfirst.mono hsubset, hstart⟩, last,
      hlast.mono hsubset, hstop⟩
    intro span hlinked
    -- every span on the way is within one that is linked among the wide ones
    have hwide : exists wide, IsLinked spans origin wide ∧ span.Within wide := by
      induction hlinked with
      | refl => exact ⟨origin, Relation.ReflTransGen.refl, Span.Within.refl origin⟩
      | tail _ hstep ih =>
          rcases ih with ⟨wide, hlinked, hinner⟩
          rcases hwithin _ hstep.left with ⟨next, hnext, hnextInner⟩
          exact ⟨next, hlinked.tail ⟨hnext, hstep.right.of_within hinner hnextInner⟩, hnextInner⟩
    rcases hwide with ⟨wide, hwide, hinner⟩
    exact hinner.trans (hall wide hwide)
  covered := by
    intro span hspan
    rcases hwithin span hspan with ⟨wide, hwide, hinner⟩
    rcases h.covered wide hwide with ⟨chain, hchain, houter⟩
    exact ⟨chain, hchain, hinner.trans houter⟩
  ordered := h.ordered

/-!
## Sweeping sorted spans
-/

/-- The chains of the given chain so far and of spans that start after its own. -/
def extendChain : Span α -> List (Span α) -> List (Span α)
  | chain, [] => [chain]
  | chain, span :: rest =>
      if span.start < chain.stop then
        extendChain { start := chain.start, stop := max chain.stop span.stop } rest
      else chain :: extendChain span rest

def chainsOf : List (Span α) -> List (Span α)
  | [] => []
  | span :: rest => extendChain span rest

structure IsOpenChain (seen : Set (Span α)) (chain : Span α) : Prop where
  linked : exists origin, origin ∈ seen ∧ forall span, span ∈ seen -> IsLinked seen origin span
  within : forall span, span ∈ seen -> span.Within chain
  start : exists span, span ∈ seen ∧ span.start = chain.start
  stop : exists span, span ∈ seen ∧ span.stop = chain.stop

theorem isOpenChain_singleton (span : Span α) : IsOpenChain {span} span where
  linked := by
    refine ⟨span, rfl, ?_⟩
    rintro _ rfl
    exact Relation.ReflTransGen.refl
  within := by
    rintro _ rfl
    exact Span.Within.refl _
  start := ⟨span, rfl, rfl⟩
  stop := ⟨span, rfl, rfl⟩

theorem IsOpenChain.areChains {seen : Set (Span α)} {chain : Span α}
    (h : IsOpenChain seen chain) : AreChains seen [chain] where
  least := by
    intro other hother
    rw [List.mem_singleton.mp hother]
    rcases h.linked with ⟨origin, horigin, hlinked⟩
    rcases h.start with ⟨first, hfirst, hstart⟩
    rcases h.stop with ⟨last, hlast, hstop⟩
    refine ⟨origin, horigin, ?_, ⟨first, hlinked first hfirst, hstart⟩, last,
      hlinked last hlast, hstop⟩
    intro span hspan
    exact h.within span (hspan.mem horigin)
  covered := fun span hspan => ⟨chain, List.mem_singleton_self chain, h.within span hspan⟩
  ordered := List.pairwise_singleton _ _

theorem IsOpenChain.insert {seen : Set (Span α)} {chain span : Span α}
    (h : IsOpenChain seen chain) (hsorted : forall other, other ∈ seen -> other.start ≤ span.start)
    (hnonempty : span.start < span.stop) (hoverlaps : span.start < chain.stop) :
    IsOpenChain (insert span seen)
      { start := chain.start, stop := max chain.stop span.stop } where
  linked := by
    rcases h.linked with ⟨origin, horigin, hlinked⟩
    rcases h.stop with ⟨last, hlast, hstop⟩
    refine ⟨origin, Or.inr horigin, ?_⟩
    rintro other (rfl | hother)
    · have hlink : last.Overlaps other := by
        constructor
        · exact (hsorted last hlast).trans_lt hnonempty
        · rw [hstop]
          exact hoverlaps
      exact ((hlinked last hlast).mono (Set.subset_insert _ _)).tail ⟨Or.inl rfl, hlink⟩
    · exact (hlinked other hother).mono (Set.subset_insert _ _)
  within := by
    rintro other (rfl | hother)
    · rcases h.start with ⟨first, hfirst, hstart⟩
      refine ⟨?_, le_max_right _ _⟩
      rw [← hstart]
      exact hsorted first hfirst
    · exact ⟨(h.within other hother).start, (h.within other hother).stop.trans (le_max_left _ _)⟩
  start := by
    rcases h.start with ⟨first, hfirst, hstart⟩
    exact ⟨first, Or.inr hfirst, hstart⟩
  stop := by
    rcases le_total chain.stop span.stop with hle | hle
    · exact ⟨span, Or.inl rfl, (max_eq_right hle).symm⟩
    · rcases h.stop with ⟨last, hlast, hstop⟩
      exact ⟨last, Or.inr hlast, hstop.trans (max_eq_left hle).symm⟩

theorem start_le_of_mem_extendChain {chain : Span α} {rest : List (Span α)}
    (hsorted : rest.Pairwise fun left right => left.start ≤ right.start)
    (hchain : forall span, span ∈ rest -> chain.start ≤ span.start) {other : Span α}
    (h : other ∈ extendChain chain rest) : chain.start ≤ other.start := by
  induction rest generalizing chain with
  | nil =>
      rw [List.mem_singleton.mp h]
  | cons span rest ih =>
      rw [List.pairwise_cons] at hsorted
      have hspan := hchain span (List.mem_cons_self ..)
      rw [extendChain] at h
      split at h
      · have hlater : forall later, later ∈ rest -> chain.start ≤ later.start :=
          fun later hmem => hchain later (List.mem_cons_of_mem _ hmem)
        exact @ih { start := chain.start, stop := max chain.stop span.stop } hsorted.right hlater h
      · rcases List.mem_cons.mp h with rfl | hlater
        · exact le_refl _
        · exact hspan.trans (ih hsorted.right hsorted.left hlater)

theorem areChains_extendChain {seen : Set (Span α)} {chain : Span α} {rest : List (Span α)}
    (hopen : IsOpenChain seen chain)
    (hsorted : rest.Pairwise fun left right => left.start ≤ right.start)
    (hseen : forall other, other ∈ seen -> forall span, span ∈ rest -> other.start ≤ span.start)
    (hnonempty : forall span, span ∈ rest -> span.start < span.stop) :
    AreChains (seen ∪ { span | span ∈ rest }) (extendChain chain rest) := by
  induction rest generalizing seen chain with
  | nil =>
      have hset : seen ∪ { span | span ∈ ([] : List (Span α)) } = seen := by simp
      rw [hset]
      exact hopen.areChains
  | cons span rest ih =>
      rw [List.pairwise_cons] at hsorted
      have hrest : forall later, later ∈ rest -> later.start < later.stop :=
        fun later hlater => hnonempty later (List.mem_cons_of_mem _ hlater)
      rw [extendChain]
      split
      · next hoverlaps =>
        have hset : seen ∪ { other | other ∈ span :: rest } =
            insert span seen ∪ { other | other ∈ rest } := by
          ext other
          simp only [Set.mem_union, Set.mem_ofPred_eq, List.mem_cons, Set.mem_insert_iff]
          rw [← or_assoc, or_comm (a := other ∈ seen)]
        rw [hset]
        apply ih _ hsorted.right _ hrest
        · exact hopen.insert (fun other hother => hseen other hother span (List.mem_cons_self ..))
            (hnonempty span (List.mem_cons_self ..)) hoverlaps
        · rintro other (rfl | hother) later hlater
          · exact hsorted.left later hlater
          · exact hseen other hother later (List.mem_cons_of_mem _ hlater)
      · next hapart =>
        rw [not_lt] at hapart
        have hset : { other | other ∈ span :: rest } =
            {span} ∪ { other | other ∈ rest } := by
          ext other
          simp
        have hlater := ih (isOpenChain_singleton span) hsorted.right
          (by rintro _ rfl later hlater; exact hsorted.left later hlater) hrest
        have hstarts : forall later, later ∈ span :: rest -> span.start ≤ later.start := by
          intro later hmem
          rcases List.mem_cons.mp hmem with rfl | hmem
          · exact le_refl _
          · exact hsorted.left later hmem
        rw [← hset] at hlater
        apply hopen.areChains.append hlater
        · intro other hother later hmem
          exact ((hopen.within other hother).stop.trans hapart).trans (hstarts later hmem)
        · intro left hleft right hright
          rw [List.mem_singleton.mp hleft]
          exact hapart.trans (start_le_of_mem_extendChain hsorted.right hsorted.left hright)

/-- The sweep over spans sorted by their starts finds their chains. -/
theorem areChains_chainsOf {spans : List (Span α)}
    (hsorted : spans.Pairwise fun left right => left.start ≤ right.start)
    (hnonempty : forall span, span ∈ spans -> span.start < span.stop) :
    AreChains { span | span ∈ spans } (chainsOf spans) := by
  cases spans with
  | nil =>
      constructor
      · intro chain hchain
        cases hchain
      · intro span hspan
        cases hspan
      · exact List.Pairwise.nil
  | cons span rest =>
      rw [List.pairwise_cons] at hsorted
      have hset : { other | other ∈ span :: rest } = {span} ∪ { other | other ∈ rest } := by
        ext other
        simp
      rw [hset]
      apply areChains_extendChain (isOpenChain_singleton span) hsorted.right
      · rintro _ rfl later hlater
        exact hsorted.left later hlater
      · exact fun later hlater => hnonempty later (List.mem_cons_of_mem _ hlater)

end

end Library
end Pertexo
