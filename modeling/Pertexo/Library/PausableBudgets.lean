import Mathlib.Algebra.Order.Group.Int
import Mathlib.Algebra.Ring.Int.Defs

/-!
# Budgets of time that can be paused

A clock runs towards a deadline or is paused with some time left. A resumed clock may gain
a little on every pause; it loses time only where its deadline is cut short.
-/

namespace Pertexo
namespace Library

/-!
## Times without a bound

An instant or a duration that is missing is later than every other.
-/

def NoLater (left right : Option Int) : Prop :=
  match left, right with
  | _, none => True
  | none, some _ => False
  | some left, some right => left ≤ right

@[simp] theorem noLater_none (left : Option Int) : NoLater left none := by
  cases left <;> trivial

@[simp] theorem not_noLater_some (right : Int) : ¬ NoLater none (some right) :=
  id

@[simp] theorem noLater_some {left right : Int} :
    NoLater (some left) (some right) ↔ left ≤ right :=
  Iff.rfl

theorem NoLater.trans {left middle right : Option Int} (hleft : NoLater left middle)
    (hright : NoLater middle right) : NoLater left right := by
  cases right with
  | none => exact noLater_none left
  | some right =>
      cases middle with
      | none => exact absurd hright (not_noLater_some right)
      | some middle =>
          cases left with
          | none => exact absurd hleft (not_noLater_some middle)
          | some left => exact Int.le_trans hleft hright

theorem noLater_self (time : Option Int) : NoLater time time := by
  cases time with
  | none => trivial
  | some time => exact Int.le_refl time

def timeLeft (deadline : Option Int) (now : Int) : Option Int :=
  deadline.map fun deadline => deadline - now

/-- The time before a deadline, none of it when the deadline has passed. -/
def timeBefore (deadline : Option Int) (now : Int) : Option Int :=
  (timeLeft deadline now).map (max 0)

def longer (time : Option Int) (more : Int) : Option Int :=
  time.map fun time => time + more

@[simp] theorem timeLeft_some (deadline now : Int) :
    timeLeft (some deadline) now = some (deadline - now) :=
  rfl

@[simp] theorem timeLeft_none (now : Int) : timeLeft none now = none :=
  rfl

@[simp] theorem timeBefore_some (deadline now : Int) :
    timeBefore (some deadline) now = some (max 0 (deadline - now)) :=
  rfl

@[simp] theorem timeBefore_none (now : Int) : timeBefore none now = none :=
  rfl

@[simp] theorem longer_some (time more : Int) : longer (some time) more = some (time + more) :=
  rfl

@[simp] theorem longer_none (more : Int) : longer none more = none :=
  rfl

/-!
## Accounts
-/

inductive BudgetClock where
  | running (since : Int) (deadline : Option Int)
  | paused (startedAt : Int) (left : Option Int)

structure Account where
  clock : BudgetClock
  spent : Int
  pauses : Nat
  cut : Prop

namespace Account

def start (since : Int) (deadline : Option Int) : Account where
  clock := .running since deadline
  spent := 0
  pauses := 0
  cut := False

/-- Time that has been spent and, on a clock that runs, will be spent before its deadline. -/
def total (account : Account) : Option Int :=
  match account.clock with
  | .running since deadline =>
      longer (timeBefore deadline since) account.spent
  | .paused _ _ => some account.spent

/-- A pause leaves the time to the deadline; a resumed clock has a deadline of its own. -/
inductive Step (slack : Int) : Account -> Account -> Prop where
  | pause {since : Int} {deadline : Option Int} {spent : Int} {pauses : Nat} {cut : Prop}
      (now : Int) (hsince : since ≤ now)
      (hopen : forall instant, deadline = some instant -> now < instant) :
      Step slack { clock := .running since deadline, spent, pauses, cut }
        { clock := .paused now (timeLeft deadline now), spent := spent + (now - since),
          pauses := pauses + 1, cut }
  | resume {startedAt : Int} {left : Option Int} {spent : Int} {pauses : Nat} {cut : Prop}
      (now : Int) (deadline : Option Int) (cutNow : Prop)
      (hgain : NoLater (timeLeft deadline now) (longer left slack))
      (hcut : ¬ NoLater left (timeLeft deadline now) -> cutNow) :
      Step slack { clock := .paused startedAt left, spent, pauses, cut }
        { clock := .running now deadline, spent, pauses, cut := cut ∨ cutNow }

/-- What is spent and left stays between the budget and the budget with its gains. -/
def Within (budget : Option Int) (slack : Int) (account : Account) : Prop :=
  match account.clock with
  | .running since deadline =>
      NoLater (longer (timeLeft deadline since) account.spent)
          (longer budget (slack * account.pauses)) ∧
        NoLater (some account.spent) (longer budget (slack * account.pauses)) ∧
          (¬ account.cut -> NoLater budget (longer (timeBefore deadline since) account.spent))
  | .paused _ left =>
      NoLater (some 0) left ∧
        NoLater (longer left (account.spent + slack)) (longer budget (slack * account.pauses)) ∧
          (¬ account.cut -> NoLater budget (longer left account.spent))

theorem within_start {slack since : Int} {deadline : Option Int} :
    Within (timeBefore deadline since) slack (start since deadline) := by
  cases deadline with
  | none => simp [Within, start]
  | some deadline =>
      simp only [Within, start, timeLeft_some, timeBefore_some, longer_some, noLater_some]
      omega

theorem Step.within {budget : Option Int} {slack : Int} (hslack : 0 ≤ slack)
    {account next : Account} (hstep : Step slack account next)
    (hwithin : Within budget slack account) : Within budget slack next := by
  cases hstep with
  | @pause since deadline spent pauses cut now hsince hopen =>
      rcases hwithin with ⟨hupper, hspent, hlower⟩
      have hpauses : slack * ((pauses + 1 : Nat) : Int) = slack * pauses + slack := by
        rw [Int.natCast_add, Int.mul_add, Int.natCast_one, Int.mul_one]
      refine ⟨?_, ?_, ?_⟩
      · cases deadline with
        | none => exact noLater_none _
        | some deadline =>
            have hleft := hopen deadline rfl
            rw [timeLeft_some, noLater_some]
            omega
      · cases budget with
        | none => exact noLater_none _
        | some budget =>
            cases deadline with
            | none => exact hupper
            | some deadline =>
                simp only [timeLeft_some, longer_some, noLater_some, hpauses] at hupper ⊢
                omega
      · intro hcut
        have hleast := hlower hcut
        cases deadline with
        | none => exact noLater_none _
        | some deadline =>
            cases budget with
            | none => exact hleast
            | some budget =>
                have hleft := hopen deadline rfl
                simp only [timeLeft_some, timeBefore_some, longer_some, noLater_some]
                  at hleast ⊢
                omega
  | @resume startedAt left spent pauses cut now deadline cutNow hgain hcut =>
      rcases hwithin with ⟨hleft, hupper, hlower⟩
      refine ⟨?_, ?_, ?_⟩
      · cases budget with
        | none => exact noLater_none _
        | some budget =>
            cases left with
            | none => exact absurd hupper (not_noLater_some _)
            | some left =>
                cases deadline with
                | none => exact absurd hgain (not_noLater_some _)
                | some deadline =>
                    simp only [timeLeft_some, longer_some, noLater_some] at hgain hupper ⊢
                    omega
      · cases budget with
        | none => exact noLater_none _
        | some budget =>
            cases left with
            | none => exact absurd hupper (not_noLater_some _)
            | some left =>
                simp only [longer_some, noLater_some] at hleft hupper ⊢
                omega
      · intro hneither
        have hleast := hlower fun h => hneither (Or.inl h)
        have hlonger : NoLater left (timeLeft deadline now) := by
          by_contra hshorter
          exact hneither (Or.inr (hcut hshorter))
        cases deadline with
        | none => exact noLater_none _
        | some deadline =>
            cases left with
            | none => exact absurd hlonger (not_noLater_some _)
            | some left =>
                cases budget with
                | none => exact hleast
                | some budget =>
                    simp only [timeLeft_some, timeBefore_some, longer_some, noLater_some]
                      at hlonger hleast ⊢
                    omega

theorem Within.total_le {budget : Option Int} {slack : Int} (hslack : 0 ≤ slack)
    {account : Account} (h : Within budget slack account) :
    NoLater account.total (longer budget (slack * account.pauses)) := by
  rcases account with ⟨clock, spent, pauses, cut⟩
  cases budget with
  | none => exact noLater_none _
  | some budget =>
      cases clock with
      | running since deadline =>
          rcases h with ⟨hupper, hspent, _⟩
          cases deadline with
          | none => exact absurd hupper (not_noLater_some _)
          | some deadline =>
              simp only [total, timeLeft_some, timeBefore_some, longer_some, noLater_some]
                at hupper hspent ⊢
              omega
      | paused startedAt left =>
          rcases h with ⟨hleft, hupper, _⟩
          cases left with
          | none => exact absurd hupper (not_noLater_some _)
          | some left =>
              simp only [total, longer_some, noLater_some] at hleft hupper ⊢
              omega

theorem Within.le_total {budget : Option Int} {slack since : Int} {deadline : Option Int}
    {account : Account} (h : Within budget slack account)
    (hrunning : account.clock = .running since deadline) (hcut : ¬ account.cut) :
    NoLater budget account.total := by
  rcases account with ⟨clock, spent, pauses, cut⟩
  dsimp only at hrunning hcut
  subst hrunning
  exact h.right.right hcut

end Account

end Library
end Pertexo
