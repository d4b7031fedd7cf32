import Mathlib.Data.List.Basic
import Mathlib.Data.List.Nodup

/-!
# Admission under caps

## Steps

Items ask for their caps in turn. An item is admitted while the maximum is not
reached and none of its caps is full; otherwise it is left out.
-/

namespace Pertexo
namespace Library

structure CapProgress (Item Cap : Type) where
  used : Cap -> Nat
  admitted : List Item

variable {Item Cap : Type} [DecidableEq Cap]

/-- The use of every cap with one more use of the given ones. -/
def useCaps (used : Cap -> Nat) (caps : List Cap) : Cap -> Nat :=
  fun cap => used cap + caps.count cap

inductive AdmissionStep (capsOf : Item -> List Cap) (limit : Cap -> Nat) (maximum : Nat)
    (before : CapProgress Item Cap) (item : Item) : CapProgress Item Cap -> Prop where
  | reached (h : maximum ≤ before.admitted.length) :
      AdmissionStep capsOf limit maximum before item before
  | full (cap : Cap) (hcap : cap ∈ capsOf item) (h : limit cap ≤ before.used cap) :
      AdmissionStep capsOf limit maximum before item before
  | admitted (hroom : before.admitted.length < maximum)
      (hfree : forall cap, cap ∈ capsOf item -> before.used cap < limit cap) :
      AdmissionStep capsOf limit maximum before item
        { used := useCaps before.used (capsOf item)
          admitted := before.admitted ++ [item] }

inductive AdmissionRun (capsOf : Item -> List Cap) (limit : Cap -> Nat) (maximum : Nat) :
    CapProgress Item Cap -> List Item -> CapProgress Item Cap -> Prop where
  | done (progress : CapProgress Item Cap) :
      AdmissionRun capsOf limit maximum progress [] progress
  | next {before middle after : CapProgress Item Cap} {item : Item} {rest : List Item}
      (hstep : AdmissionStep capsOf limit maximum before item middle)
      (hrest : AdmissionRun capsOf limit maximum middle rest after) :
      AdmissionRun capsOf limit maximum before (item :: rest) after

section

variable {capsOf : Item -> List Cap} {limit : Cap -> Nat} {maximum : Nat}
variable {before after : CapProgress Item Cap} {item : Item} {items : List Item}

structure WithinCaps (limit : Cap -> Nat) (maximum : Nat) (progress : CapProgress Item Cap) :
    Prop where
  caps : forall cap, progress.used cap ≤ limit cap
  length : progress.admitted.length ≤ maximum

/-- An item is admitted, or the maximum is reached, or one of its caps is full. -/
def IsSettled (capsOf : Item -> List Cap) (limit : Cap -> Nat) (maximum : Nat)
    (progress : CapProgress Item Cap) (item : Item) : Prop :=
  item ∈ progress.admitted ∨ maximum ≤ progress.admitted.length ∨
    exists cap, cap ∈ capsOf item ∧ limit cap ≤ progress.used cap

theorem AdmissionStep.within (h : AdmissionStep capsOf limit maximum before item after)
    (hnodup : (capsOf item).Nodup) (hwithin : WithinCaps limit maximum before) :
    WithinCaps limit maximum after := by
  cases h with
  | reached _ => exact hwithin
  | full _ _ _ => exact hwithin
  | admitted hroom hfree =>
      constructor
      · intro cap
        show before.used cap + (capsOf item).count cap ≤ limit cap
        by_cases hcap : cap ∈ capsOf item
        · rw [List.count_eq_one_of_mem hnodup hcap]
          exact hfree cap hcap
        · rw [List.count_eq_zero_of_not_mem hcap]
          exact hwithin.caps cap
      · rw [List.length_append, List.length_singleton]
        exact hroom

theorem AdmissionStep.used_le (h : AdmissionStep capsOf limit maximum before item after)
    (cap : Cap) : before.used cap ≤ after.used cap := by
  cases h with
  | reached _ => exact Nat.le_refl _
  | full _ _ _ => exact Nat.le_refl _
  | admitted _ _ => exact Nat.le_add_right _ _

theorem AdmissionStep.admitted_prefix (h : AdmissionStep capsOf limit maximum before item after) :
    before.admitted <+: after.admitted := by
  cases h with
  | reached _ => exact List.prefix_refl _
  | full _ _ _ => exact List.prefix_refl _
  | admitted _ _ => exact List.prefix_append _ _

theorem AdmissionStep.mem_cases {other : Item}
    (h : AdmissionStep capsOf limit maximum before item after) (hother : other ∈ after.admitted) :
    other ∈ before.admitted ∨ other = item := by
  cases h with
  | reached _ => exact Or.inl hother
  | full _ _ _ => exact Or.inl hother
  | admitted _ _ =>
      rcases List.mem_append.mp hother with hold | hnew
      · exact Or.inl hold
      · exact Or.inr (List.mem_singleton.mp hnew)

theorem AdmissionStep.settled (h : AdmissionStep capsOf limit maximum before item after) :
    IsSettled capsOf limit maximum after item := by
  cases h with
  | reached hmaximum => exact Or.inr (Or.inl hmaximum)
  | full cap hcap hfull => exact Or.inr (Or.inr ⟨cap, hcap, hfull⟩)
  | admitted _ _ => exact Or.inl (List.mem_append_right _ (List.mem_singleton_self item))

theorem AdmissionStep.keeps_settled {other : Item}
    (h : AdmissionStep capsOf limit maximum before item after)
    (hsettled : IsSettled capsOf limit maximum before other) :
    IsSettled capsOf limit maximum after other := by
  rcases hsettled with hadmitted | hmaximum | ⟨cap, hcap, hfull⟩
  · exact Or.inl (h.admitted_prefix.subset hadmitted)
  · exact Or.inr (Or.inl (Nat.le_trans hmaximum h.admitted_prefix.length_le))
  · exact Or.inr (Or.inr ⟨cap, hcap, Nat.le_trans hfull (h.used_le cap)⟩)

/-!
## Runs
-/

theorem AdmissionRun.within (h : AdmissionRun capsOf limit maximum before items after)
    (hnodup : forall item, item ∈ items -> (capsOf item).Nodup)
    (hwithin : WithinCaps limit maximum before) : WithinCaps limit maximum after := by
  induction h with
  | done _ => exact hwithin
  | next hstep _ ih =>
      apply ih
      · exact fun other hother => hnodup other (List.mem_cons_of_mem _ hother)
      · exact hstep.within (hnodup _ (List.mem_cons_self ..)) hwithin

theorem AdmissionRun.keeps_settled {other : Item}
    (h : AdmissionRun capsOf limit maximum before items after)
    (hsettled : IsSettled capsOf limit maximum before other) :
    IsSettled capsOf limit maximum after other := by
  induction h with
  | done _ => exact hsettled
  | next hstep _ ih => exact ih (hstep.keeps_settled hsettled)

/-- What a run leaves out has a full cap at its end, or the maximum is reached. -/
theorem AdmissionRun.settled (h : AdmissionRun capsOf limit maximum before items after) :
    forall item, item ∈ items -> IsSettled capsOf limit maximum after item := by
  induction h with
  | done _ =>
      intro item hitem
      cases hitem
  | next hstep hrest ih =>
      intro item hitem
      rcases List.mem_cons.mp hitem with rfl | hlater
      · exact hrest.keeps_settled hstep.settled
      · exact ih item hlater

theorem AdmissionRun.exists_admitted (h : AdmissionRun capsOf limit maximum before items after) :
    exists added, after.admitted = before.admitted ++ added ∧ added.Sublist items ∧
      forall cap, after.used cap = before.used cap + (added.flatMap capsOf).count cap := by
  induction h with
  | done progress => exact ⟨[], (List.append_nil _).symm, List.Sublist.refl _, fun _ => rfl⟩
  | @next before middle after item rest hstep _ ih =>
      rcases ih with ⟨added, hadmitted, hsublist, hused⟩
      cases hstep with
      | reached _ => exact ⟨added, hadmitted, hsublist.cons item, hused⟩
      | full _ _ _ => exact ⟨added, hadmitted, hsublist.cons item, hused⟩
      | admitted _ _ =>
          refine ⟨item :: added, ?_, hsublist.cons_cons item, ?_⟩
          · rw [hadmitted, List.append_assoc]
            rfl
          · intro cap
            rw [hused cap, List.flatMap_cons, List.count_append, ← Nat.add_assoc]
            rfl

end

/-!
## Counting in fixed windows

Every charge is made for a key in the window that is current for it. A counter
of a key knows its current window and at least the charges made in it, so a
limit on the counter is a limit on the charges of every window.
-/

structure Charge (κ : Type u) where
  key : κ
  window : Nat
deriving DecidableEq

variable {κ : Type u} [DecidableEq κ]

def chargedIn (charges : List (Charge κ)) (key : κ) (window : Nat) : Nat :=
  charges.countP fun charge => decide (charge.key = key ∧ charge.window = window)

/-- What the counter of a key knows of the charges made for it. -/
structure CounterOf (limit : Nat) (charges : List (Charge κ)) (key : κ) (window used : Nat) :
    Prop where
  used_le : used ≤ limit
  charged_le : chargedIn charges key window ≤ used
  latest : forall charge, charge ∈ charges -> charge.key = key -> charge.window ≤ window

variable {limit window used : Nat} {charges : List (Charge κ)} {key other : κ}

theorem chargedIn_concat (charge : Charge κ) :
    chargedIn (charges ++ [charge]) key window =
      chargedIn charges key window +
        if charge.key = key ∧ charge.window = window then 1 else 0 := by
  rw [chargedIn, List.countP_append, List.countP_singleton, chargedIn]
  simp only [decide_eq_true_eq]

theorem CounterOf.fresh
    (h : forall charge, charge ∈ charges -> charge.key = key -> charge.window < window) :
    CounterOf limit charges key window 0 := by
  constructor
  · exact Nat.zero_le limit
  · apply Nat.le_of_eq
    rw [chargedIn, List.countP_eq_zero]
    intro charge hmem hsame
    have hboth := of_decide_eq_true hsame
    exact absurd (h charge hmem hboth.left) (hboth.right ▸ Nat.lt_irrefl _)
  · exact fun charge hmem hkey => Nat.le_of_lt (h charge hmem hkey)

theorem CounterOf.renew (h : CounterOf limit charges key window used) {later : Nat}
    (hlater : window < later) : CounterOf limit charges key later 0 :=
  CounterOf.fresh fun charge hmem hkey => Nat.lt_of_le_of_lt (h.latest charge hmem hkey) hlater

theorem CounterOf.charge (h : CounterOf limit charges key window used) (hused : used < limit) :
    CounterOf limit (charges ++ [{ key := key, window := window }]) key window (used + 1) := by
  constructor
  · exact hused
  · rw [chargedIn_concat, if_pos ⟨rfl, rfl⟩]
    exact Nat.succ_le_succ h.charged_le
  · intro charge hmem hkey
    cases List.mem_append.mp hmem with
    | inl hold => exact h.latest charge hold hkey
    | inr hnew => exact Nat.le_of_eq (congrArg Charge.window (List.mem_singleton.mp hnew))

theorem CounterOf.charge_other (h : CounterOf limit charges key window used) (hne : other ≠ key)
    (otherWindow : Nat) :
    CounterOf limit (charges ++ [{ key := other, window := otherWindow }]) key window used := by
  constructor
  · exact h.used_le
  · rw [chargedIn_concat, if_neg fun hsame => hne hsame.left]
    exact h.charged_le
  · intro charge hmem hkey
    cases List.mem_append.mp hmem with
    | inl hold => exact h.latest charge hold hkey
    | inr hnew =>
        rw [List.mem_singleton.mp hnew] at hkey
        exact absurd hkey hne

/-- A charge that its counter allows keeps every window within the limit. -/
theorem CounterOf.chargedIn_concat_le (h : CounterOf limit charges key window used)
    (hused : used < limit) (hall : forall window, chargedIn charges other window ≤ limit)
    (counted : Nat) :
    chargedIn (charges ++ [{ key := key, window := window }]) other counted ≤ limit := by
  rw [chargedIn_concat]
  split
  · next hsame =>
    rw [← hsame.left, ← hsame.right]
    exact Nat.le_trans (Nat.succ_le_succ h.charged_le) hused
  · exact hall counted

end Library
end Pertexo
