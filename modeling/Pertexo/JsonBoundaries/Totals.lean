import Mathlib.Algebra.BigOperators.Group.List.Basic
import Mathlib.Algebra.Order.Ring.Nat
import Mathlib.Order.MinMax
import Pertexo.Library.Runs

/-!
# Totals under limits

A walk counts bytes and members and looks at depths, and it ends with a failure as soon as one of
them exceeds its limit. Whatever the order of the walk, it succeeds exactly when the totals are
within the limits.
-/

namespace Pertexo
namespace JsonBoundaries

open Library

inductive LimitKind where
  | bytes
  | members
  | depth
deriving DecidableEq, Repr

@[ext] structure Totals where
  bytes : Nat
  members : Nat
  depth : Nat
deriving DecidableEq, Repr

instance : Zero Totals :=
  ⟨{ bytes := 0, members := 0, depth := 0 }⟩

instance : Add Totals :=
  ⟨fun left right =>
    { bytes := left.bytes + right.bytes
      members := left.members + right.members
      depth := max left.depth right.depth }⟩

@[simp] theorem Totals.bytes_zero : (0 : Totals).bytes = 0 := rfl

@[simp] theorem Totals.members_zero : (0 : Totals).members = 0 := rfl

@[simp] theorem Totals.depth_zero : (0 : Totals).depth = 0 := rfl

@[simp] theorem Totals.bytes_add (left right : Totals) :
    (left + right).bytes = left.bytes + right.bytes := rfl

@[simp] theorem Totals.members_add (left right : Totals) :
    (left + right).members = left.members + right.members := rfl

@[simp] theorem Totals.depth_add (left right : Totals) :
    (left + right).depth = max left.depth right.depth := rfl

instance : AddCommMonoid Totals where
  add_assoc first second third := by
    ext <;> simp only [Totals.bytes_add, Totals.members_add, Totals.depth_add] <;> omega
  zero_add total := by
    ext <;> simp
  add_zero total := by
    ext <;> simp
  add_comm left right := by
    ext <;> simp only [Totals.bytes_add, Totals.members_add, Totals.depth_add] <;> omega
  nsmul := nsmulRec

def Totals.of (total : Totals) : LimitKind -> Nat
  | .bytes => total.bytes
  | .members => total.members
  | .depth => total.depth

/-- What a walk carries on with: it does not remember how deep it has been. -/
def Totals.counted (total : Totals) : Totals :=
  { total with depth := 0 }

/-- A limit that is absent is never exceeded. -/
abbrev TotalLimits := LimitKind -> Option Nat

def Exceeds (limits : TotalLimits) (kind : LimitKind) (total : Totals) : Prop :=
  exists maximum, limits kind = some maximum ∧ maximum < total.of kind

def Within (limits : TotalLimits) (total : Totals) : Prop :=
  forall kind, ¬ Exceeds limits kind total

section

variable {limits : TotalLimits}

theorem Exceeds.mono {kind : LimitKind} {total larger : Totals} (h : Exceeds limits kind total)
    (hle : total.of kind ≤ larger.of kind) : Exceeds limits kind larger := by
  rcases h with ⟨maximum, hlimit, hexceeds⟩
  exact ⟨maximum, hlimit, Nat.lt_of_lt_of_le hexceeds hle⟩

theorem of_le_add (kind : LimitKind) (total more : Totals) :
    total.of kind ≤ (total + more).of kind := by
  cases kind with
  | bytes => exact Nat.le_add_right _ _
  | members => exact Nat.le_add_right _ _
  | depth => exact Nat.le_max_left _ _

theorem of_counted_add_le (kind : LimitKind) (total more : Totals) :
    (total.counted + more).of kind ≤ (total + more).of kind := by
  cases kind with
  | bytes => exact Nat.le_refl _
  | members => exact Nat.le_refl _
  | depth => exact Nat.max_le.mpr ⟨Nat.zero_le _, Nat.le_max_right _ _⟩

theorem within_counted {total : Totals} (h : Within limits total) :
    Within limits total.counted := by
  intro kind hexceeds
  have hle := of_counted_add_le kind total 0
  rw [add_zero, add_zero] at hle
  exact h kind (hexceeds.mono hle)

theorem within_zero : Within limits 0 := by
  rintro kind ⟨maximum, _, hexceeds⟩
  cases kind with
  | bytes => exact Nat.not_lt_zero _ hexceeds
  | members => exact Nat.not_lt_zero _ hexceeds
  | depth => exact Nat.not_lt_zero _ hexceeds

theorem within_add {total more : Totals} (htotal : Within limits total)
    (hmore : Within limits (total.counted + more)) : Within limits (total + more) := by
  intro kind hexceeds
  cases kind with
  | bytes => exact hmore .bytes hexceeds
  | members => exact hmore .members hexceeds
  | depth =>
      rcases hexceeds with ⟨maximum, hlimit, hdepth⟩
      rcases lt_max_iff.mp hdepth with hfirst | hrest
      · exact htotal .depth ⟨maximum, hlimit, hfirst⟩
      · exact hmore .depth ⟨maximum, hlimit, lt_max_of_lt_right hrest⟩

/-- The result of a walk that comes to `total`: its final state within the limits, or else a
failure of a kind that is exceeded. -/
def Accounts (limits : TotalLimits) (kindOf : Failure -> Option LimitKind) (total : Totals)
    (final : State) (result : Except Failure State) : Prop :=
  (result = .ok final ∧ Within limits total) ∨
    exists failure kind, result = .error failure ∧ kindOf failure = some kind ∧
      Exceeds limits kind total

section

variable {State Middle Failure : Type} {kindOf : Failure -> Option LimitKind}

theorem Accounts.bind {before more : Totals} {middle : Middle} {final : State}
    {first : Except Failure Middle} {rest : Middle -> Except Failure State}
    (hfirst : Accounts limits kindOf before middle first)
    (hrest : Accounts limits kindOf (before.counted + more) final (rest middle)) :
    Accounts limits kindOf (before + more) final (first >>= rest) := by
  rcases hfirst with ⟨rfl, hwithin⟩ | ⟨failure, kind, rfl, hkind, hexceeds⟩
  · rcases hrest with ⟨hok, hmore⟩ | ⟨failure, kind, herror, hkind, hexceeds⟩
    · exact Or.inl ⟨hok, within_add hwithin hmore⟩
    · exact Or.inr ⟨failure, kind, herror, hkind,
        hexceeds.mono (of_counted_add_le kind before more)⟩
  · exact Or.inr ⟨failure, kind, rfl, hkind, hexceeds.mono (of_le_add kind before more)⟩

theorem accounts_error {failure : Failure} {kind : LimitKind} {total : Totals} {final : State}
    (hkind : kindOf failure = some kind) (hexceeds : Exceeds limits kind total) :
    Accounts limits kindOf total final (.error failure) :=
  Or.inr ⟨failure, kind, rfl, hkind, hexceeds⟩

theorem Accounts.map {Result : Type} {total : Totals} {final : State}
    {result : Except Failure State} (h : Accounts limits kindOf total final result)
    (f : State -> Result) : Accounts limits kindOf total (f final) (result.map f) := by
  rcases h with ⟨rfl, hwithin⟩ | ⟨failure, kind, rfl, hkind, hexceeds⟩
  · exact Or.inl ⟨rfl, hwithin⟩
  · exact Or.inr ⟨failure, kind, rfl, hkind, hexceeds⟩

theorem Accounts.of_exceeds {total other : Totals} {final : State} {result : Except Failure State}
    (h : Accounts limits kindOf total final result) {kind : LimitKind}
    (hkind : Exceeds limits kind total)
    (hsame : forall kind, Exceeds limits kind total -> Exceeds limits kind other) (last : State) :
    Accounts limits kindOf other last result := by
  rcases h with ⟨_, hwithin⟩ | ⟨failure, found, herror, hfound, hexceeds⟩
  · exact absurd hkind (hwithin kind)
  · exact Or.inr ⟨failure, found, herror, hfound, hsame found hexceeds⟩

/-- A walk succeeds exactly when its totals are within the limits. -/
theorem Accounts.eq_ok_iff {total : Totals} {final found : State} {result : Except Failure State}
    (h : Accounts limits kindOf total final result) :
    result = .ok found ↔ Within limits total ∧ found = final := by
  rcases h with ⟨rfl, hwithin⟩ | ⟨failure, kind, rfl, hkind, hexceeds⟩
  · constructor
    · intro hfound
      exact ⟨hwithin, (Except.ok.inj hfound).symm⟩
    · intro hfound
      rw [hfound.right]
  · constructor
    · intro hfound
      cases hfound
    · intro hfound
      exact absurd hexceeds (hfound.left kind)

theorem Accounts.exceeds {total : Totals} {final : State} {result : Except Failure State}
    (h : Accounts limits kindOf total final result) {failure : Failure}
    (herror : result = .error failure) :
    exists kind, kindOf failure = some kind ∧ Exceeds limits kind total := by
  rcases h with ⟨rfl, _⟩ | ⟨found, kind, rfl, hkind, hexceeds⟩
  · cases herror
  · cases herror
    exact ⟨kind, hkind, hexceeds⟩

end

/-!
## Machines that count

A machine keeps what it has spent in its state. Frames that account for totals of their own
account for the sum together.
-/

section

variable {Frame State Failure : Type} {machine : StackMachine Frame State Failure}
  {kindOf : Failure -> Option LimitKind} {spent : State -> Totals}

/-- Running the frame comes to the total, from every state that is ready for it. -/
def Spends (limits : TotalLimits) (kindOf : Failure -> Option LimitKind)
    (spent : State -> Totals) (machine : StackMachine Frame State Failure)
    (Ready : State -> Prop) (charge : State -> Totals -> State) (frame : Frame)
    (total : Totals) : Prop :=
  forall state, Ready state -> Within limits (spent state) ->
    Ready (charge state total) ∧ spent (charge state total) = (spent state + total).counted ∧
      Accounts limits kindOf (spent state + total) (charge state total)
        (machine.run [frame] state)

theorem accounts_cons {frame : Frame} {rest : List Frame} {state middle final : State}
    {first more : Totals}
    (hfirst : Accounts limits kindOf (spent state + first) middle (machine.run [frame] state))
    (hspent : spent middle = (spent state + first).counted)
    (hrest : Within limits (spent middle) ->
      Accounts limits kindOf (spent middle + more) final (machine.run rest middle)) :
    Accounts limits kindOf (spent state + (first + more)) final
      (machine.run (frame :: rest) state) := by
  rw [← add_assoc, StackMachine.run_cons]
  rcases hfirst with ⟨hok, hpassed⟩ | ⟨failure, kind, herror, hkind, hexceeds⟩
  · apply Accounts.bind (Or.inl ⟨hok, hpassed⟩)
    rw [← hspent]
    apply hrest
    rw [hspent]
    exact within_counted hpassed
  · rw [herror]
    exact accounts_error hkind (hexceeds.mono (of_le_add kind _ _))

theorem accounts_frames {Ready : State -> Prop} {charge : State -> Totals -> State}
    (hcharge : forall state first second,
      charge (charge state first) second = charge state (first + second))
    (hzero : forall state, charge state 0 = state) {frames : List Frame} {totals : List Totals}
    (h : List.Forall₂ (Spends limits kindOf spent machine Ready charge) frames totals)
    {state : State} (hready : Ready state) (hwithin : Within limits (spent state)) :
    Accounts limits kindOf (spent state + totals.sum) (charge state totals.sum)
      (machine.run frames state) := by
  induction h generalizing state with
  | nil =>
      rw [List.sum_nil, add_zero, hzero, StackMachine.run_nil]
      exact Or.inl ⟨rfl, hwithin⟩
  | @cons frame total frames totals hfirst _ ih =>
      rcases hfirst state hready hwithin with ⟨hnext, hspent, hwalk⟩
      rw [List.sum_cons, ← hcharge]
      exact accounts_cons hwalk hspent (ih hnext)

/-- A frame comes to its own total and to the total of what it puts on the stack. -/
theorem accounts_take {frame : Frame} {pushed : List Frame} {state next final : State}
    {own rest : Totals}
    (htake : Accounts limits kindOf (spent state + own) (pushed, next) (machine.take frame state))
    (hspent : spent next = (spent state + own).counted)
    (hpushed : Within limits (spent state + own) ->
      Accounts limits kindOf (spent next + rest) final (machine.run pushed next)) :
    Accounts limits kindOf (spent state + (own + rest)) final (machine.run [frame] state) := by
  rw [StackMachine.run_singleton, ← add_assoc]
  rcases htake with ⟨hok, hpassed⟩ | ⟨failure, kind, herror, hkind, hexceeds⟩
  · apply Accounts.bind (Or.inl ⟨hok, hpassed⟩)
    rw [← hspent]
    exact hpushed hpassed
  · rw [herror]
    exact accounts_error hkind (hexceeds.mono (of_le_add kind _ _))

end

end

end JsonBoundaries
end Pertexo
