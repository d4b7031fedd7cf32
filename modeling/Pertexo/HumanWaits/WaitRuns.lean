import Pertexo.HumanWaits.WaitTransactions

/-!
# The time of a run across its waits

Transactions of every run and changes from outside interleave. An account follows the
clock of one run: it sums the time that the run spends unpaused before its deadline.
-/

namespace Pertexo
namespace HumanWaits

open Library

/-!
## The remaining time of a pause
-/

theorem wholeMilliseconds_bounds {span whole : Int} (h : wholeMilliseconds span = .ok whole) :
    span ≤ whole * millisecond ∧ whole * millisecond < span + millisecond := by
  rw [wholeMilliseconds] at h
  split at h
  · cases h
    rw [millisecond]
    omega
  · cases h

/-- The stored milliseconds stand for the time that was left; none are stored when that
time was the time to the absolute deadline. -/
def StandsFor (run : WorkflowRun) (startedAt : Int) (left : Option Int) : Prop :=
  match run.remainingExecutionMs with
  | none => left = timeLeft run.absoluteDeadlineAt startedAt
  | some remaining =>
      exists time, left = some time ∧ time ≤ remaining * millisecond ∧
        remaining * millisecond ≤ time + millisecond

theorem standsFor_pausedRun {run : WorkflowRun} {observed : Int} {remaining : Option Int}
    (habsolute : NoLater run.deadlineAt run.absoluteDeadlineAt)
    (h : remainingAt run observed = .ok remaining) :
    StandsFor (pausedRun run observed remaining) observed (timeLeft run.deadlineAt observed) := by
  rw [remainingAt] at h
  cases hdeadline : run.deadlineAt with
  | none =>
      rw [hdeadline] at h habsolute
      cases h
      cases hend : run.absoluteDeadlineAt with
      | none => simp [StandsFor, pausedRun, hend]
      | some absolute =>
          rw [hend] at habsolute
          exact absurd habsolute (not_noLater_some absolute)
  | some deadline =>
      rw [hdeadline] at h
      dsimp only at h
      split at h
      · next hsame =>
        cases h
        simp [StandsFor, pausedRun, hsame]
      · rcases exists_of_map_eq_ok h with ⟨whole, hwhole, rfl⟩
        rcases wholeMilliseconds_bounds hwhole with ⟨hlower, hupper⟩
        exact ⟨deadline - observed, rfl, hlower, Int.le_of_lt hupper⟩

section

variable {RunId CallId : Type} [DecidableEq RunId]

/-- A resumed run gains at most a millisecond, and loses time only to the absolute
deadline or to a parent's. -/
theorem resumedDeadline_left {db : Database RunId CallId} {runId : RunId} {run : WorkflowRun}
    {startedAt resumed : Int} {left : Option Int} (hstands : StandsFor run startedAt left)
    (hlater : startedAt ≤ resumed) :
    NoLater (timeLeft (resumedDeadline db runId run resumed) resumed) (longer left millisecond) ∧
      (¬ NoLater left (timeLeft (resumedDeadline db runId run resumed) resumed) ->
        resumedDeadline db runId run resumed = run.absoluteDeadlineAt ∨
          resumedDeadline db runId run resumed = parentDeadline db runId) := by
  have hleast : resumedDeadline db runId run resumed = earlier run.absoluteDeadlineAt
      (earlier (ownDeadline run resumed) (parentDeadline db runId)) := by
    rw [resumedDeadline, least, List.foldr_cons, List.foldr_cons, List.foldr_cons,
      List.foldr_nil, earlier_none]
  have habsolute := noLater_earlier_left run.absoluteDeadlineAt
    (earlier (ownDeadline run resumed) (parentDeadline db runId))
  have hown := (noLater_earlier_right run.absoluteDeadlineAt
    (earlier (ownDeadline run resumed) (parentDeadline db runId))).trans
      (noLater_earlier_left _ _)
  rw [← hleast] at habsolute hown
  rw [StandsFor] at hstands
  cases hremaining : run.remainingExecutionMs with
  | none =>
      rw [hremaining] at hstands
      dsimp only at hstands
      rw [hstands]
      have hnoOwn : ownDeadline run resumed = none := by
        rw [ownDeadline, hremaining]
        rfl
      rw [hnoOwn] at hleast
      constructor
      · cases hend : run.absoluteDeadlineAt with
        | none => exact noLater_none _
        | some absolute =>
            rw [hend] at habsolute
            cases hdeadline : resumedDeadline db runId run resumed with
            | none =>
                rw [hdeadline] at habsolute
                exact absurd habsolute (not_noLater_some absolute)
            | some deadline =>
                rw [hdeadline] at habsolute
                simp only [timeLeft_some, longer_some, noLater_some, millisecond] at habsolute ⊢
                omega
      · intro _
        rcases earlier_eq run.absoluteDeadlineAt (earlier none (parentDeadline db runId)) with
          heq | heq
        · exact Or.inl (hleast.trans heq)
        · exact Or.inr (hleast.trans heq)
  | some remaining =>
      rw [hremaining] at hstands
      rcases hstands with ⟨time, rfl, hlower, hupper⟩
      have hend : ownDeadline run resumed = some (resumed + remaining * millisecond) := by
        rw [ownDeadline, hremaining]
        rfl
      rw [hend] at hown
      constructor
      · cases hdeadline : resumedDeadline db runId run resumed with
        | none =>
            rw [hdeadline] at hown
            exact absurd hown (not_noLater_some _)
        | some deadline =>
            rw [hdeadline] at hown
            simp only [timeLeft_some, longer_some, noLater_some] at hown ⊢
            omega
      · intro hshorter
        rcases earlier_eq run.absoluteDeadlineAt
          (earlier (ownDeadline run resumed) (parentDeadline db runId)) with heq | heq
        · exact Or.inl (hleast.trans heq)
        · rcases earlier_eq (ownDeadline run resumed) (parentDeadline db runId) with howns | hparent
          · refine absurd ?_ hshorter
            rw [hleast, heq, howns, hend, timeLeft_some, noLater_some]
            omega
          · exact Or.inr (hleast.trans (heq.trans hparent))

/-!
## Runs
-/

def Readings.Forward (readings : Readings CallId) : Prop :=
  readings.checked ≤ readings.observed ∧ readings.observed ≤ readings.answered ∧
    readings.checked ≤ readings.resumed ∧ readings.resumed ≤ readings.answered ∧
      forall call, readings.checked ≤ readings.callShifted call ∧
        readings.callShifted call ≤ readings.resumed ∧
          readings.checked ≤ readings.callCut call ∧ readings.callCut call ≤ readings.resumed

/-- A transaction that takes no time. -/
def Readings.Instant (readings : Readings CallId) : Prop :=
  forall call, readings.callShifted call = readings.resumed ∧
    readings.callCut call = readings.resumed

def WorkflowRun.SameClock (run other : WorkflowRun) : Prop :=
  other.deadlineAt = run.deadlineAt ∧ other.absoluteDeadlineAt = run.absoluteDeadlineAt ∧
    other.humanWaitStartedAt = run.humanWaitStartedAt ∧
      other.remainingExecutionMs = run.remainingExecutionMs

structure Watched (RunId : Type) (CallId : Type) where
  db : Database RunId CallId
  now : Int
  account : Account

/-- The part of an unpaused stretch that lies before the deadline. -/
def spentBefore (clock : BudgetClock) (now : Int) : Int :=
  match clock with
  | .running since none => now - since
  | .running since (some deadline) => max 0 (min now deadline - since)
  | .paused _ _ => 0

/-- Whether the deadline of a resumed run leaves it less than it had at its pause, because
the absolute deadline or a parent's does. -/
def cutShort (clock : BudgetClock) (after : WorkflowRun) (parent : Option Int)
    (resumed : Int) : Prop :=
  match clock with
  | .paused _ left => ¬ NoLater left (timeLeft after.deadlineAt resumed) ∧
      (after.deadlineAt = after.absoluteDeadlineAt ∨ after.deadlineAt = parent)
  | .running _ _ => False

def recorded (account : Account) (before after : WorkflowRun) (parent : Option Int)
    (resumed : Int) : Account :=
  match before.humanWaitStartedAt, after.humanWaitStartedAt with
  | none, some startedAt =>
      { clock := .paused startedAt (timeLeft before.deadlineAt startedAt)
        spent := account.spent + spentBefore account.clock startedAt
        pauses := account.pauses + 1
        cut := account.cut }
  | some _, none =>
      { clock := .running resumed after.deadlineAt
        spent := account.spent
        pauses := account.pauses
        cut := account.cut ∨ cutShort account.clock after parent resumed }
  | _, _ => account

inductive WaitStep (runId : RunId) : Watched RunId CallId -> Watched RunId CallId -> Prop where
  | synchronized {db : Database RunId CallId} {now : Int} {account : Account}
      {transaction : Transaction CallId} {result : Synchronized RunId CallId}
      {before after : WorkflowRun} (hnow : now ≤ transaction.readings.checked)
      (hforward : transaction.readings.Forward)
      (hsynchronize : synchronizeHumanWait db runId transaction = .ok result)
      (hbefore : db.runs runId = some before) (hafter : result.db.runs runId = some after) :
      WaitStep runId { db, now, account }
        { db := result.db, now := transaction.readings.answered,
          account := recorded account before after (parentDeadline db runId)
            transaction.readings.resumed }
  | other {db : Database RunId CallId} {now : Int} {account : Account} {otherId : RunId}
      {transaction : Transaction CallId} {result : Synchronized RunId CallId}
      (hother : otherId ≠ runId) (hnow : now ≤ transaction.readings.answered)
      (hsynchronize : synchronizeHumanWait db otherId transaction = .ok result) :
      WaitStep runId { db, now, account }
        { db := result.db, now := transaction.readings.answered, account }
  | outside {db next : Database RunId CallId} {now later : Int} {account : Account}
      (hnow : now ≤ later)
      (hclock : forall run, db.runs runId = some run ->
        exists same, next.runs runId = some same ∧ run.SameClock same) :
      WaitStep runId { db, now, account } { db := next, now := later, account }

/-!
## The invariant
-/

inductive Linked (now : Int) (run : WorkflowRun) : BudgetClock -> Prop where
  | running (since : Int) (hrunning : run.humanWaitStartedAt = none) (hsince : since ≤ now) :
      Linked now run (.running since run.deadlineAt)
  | paused (startedAt : Int) (left : Option Int) (hpaused : run.humanWaitStartedAt = some startedAt)
      (hstarted : startedAt ≤ now) (hstands : StandsFor run startedAt left) :
      Linked now run (.paused startedAt left)

structure ClockKept (runId : RunId) (absolute budget : Option Int)
    (watched : Watched RunId CallId) : Prop where
  linked : exists run, watched.db.runs runId = some run ∧ run.absoluteDeadlineAt = absolute ∧
    NoLater run.deadlineAt absolute ∧ Linked watched.now run watched.account.clock
  within : watched.account.Within budget millisecond

theorem Linked.later {now later : Int} {run : WorkflowRun} {clock : BudgetClock}
    (hlater : now ≤ later) (h : Linked now run clock) : Linked later run clock := by
  cases h with
  | running since hrunning hsince =>
      exact Linked.running since hrunning (Int.le_trans hsince hlater)
  | paused startedAt left hpaused hstarted hstands =>
      exact Linked.paused startedAt left hpaused (Int.le_trans hstarted hlater) hstands

theorem Linked.sameClock {now : Int} {run other : WorkflowRun} {clock : BudgetClock}
    (hsame : run.SameClock other) (h : Linked now run clock) : Linked now other clock := by
  rcases hsame with ⟨hdeadline, habsolute, hstartedAt, hremaining⟩
  cases h with
  | running since hrunning hsince =>
      rw [← hdeadline]
      exact Linked.running since (hstartedAt.trans hrunning) hsince
  | paused startedAt left hpaused hstarted hstands =>
      refine Linked.paused startedAt left (hstartedAt.trans hpaused) hstarted ?_
      rw [StandsFor, hremaining, habsolute]
      exact hstands

theorem recorded_unchanged (account : Account) (run : WorkflowRun) (parent : Option Int)
    (resumed : Int) : recorded account run run parent resumed = account := by
  rw [recorded]
  cases run.humanWaitStartedAt <;> rfl

theorem spentBefore_running {since now : Int} {deadline : Option Int} (hsince : since ≤ now)
    (hopen : forall instant, deadline = some instant -> now < instant) :
    spentBefore (.running since deadline) now = now - since := by
  cases deadline with
  | none => rfl
  | some deadline =>
      have hbefore := hopen deadline rfl
      rw [spentBefore]
      omega

theorem paused_step {now observed : Int} {before : WorkflowRun} {remaining parent : Option Int}
    {resumed : Int} {account : Account} (hrunning : before.humanWaitStartedAt = none)
    (hobserved : now ≤ observed)
    (hopen : forall instant, before.deadlineAt = some instant -> observed < instant)
    (hlinked : Linked now before account.clock) :
    Account.Step millisecond account
      (recorded account before (pausedRun before observed remaining) parent resumed) := by
  rcases account with ⟨clock, spent, pauses, cut⟩
  dsimp only at hlinked
  rw [recorded, hrunning]
  dsimp only [pausedRun]
  cases hlinked with
  | running since _ hsince =>
      have hearlier := Int.le_trans hsince hobserved
      rw [spentBefore_running hearlier hopen]
      exact Account.Step.pause observed hearlier hopen
  | paused startedAt left hpaused _ _ =>
      rw [hrunning] at hpaused
      cases hpaused

theorem resumed_step {db : Database RunId CallId} {runId : RunId} {now resumed startedAt : Int}
    {before : WorkflowRun} {account : Account}
    (hpaused : before.humanWaitStartedAt = some startedAt) (hresumed : now ≤ resumed)
    (hlinked : Linked now before account.clock) :
    Account.Step millisecond account
      (recorded account before
        (resumedRun before (resumedDeadline db runId before resumed))
        (parentDeadline db runId) resumed) := by
  rcases account with ⟨clock, spent, pauses, cut⟩
  dsimp only at hlinked
  rw [recorded, hpaused]
  dsimp only [resumedRun]
  cases hlinked with
  | running since hrunning hsince =>
      rw [hpaused] at hrunning
      cases hrunning
  | paused started left _ hstarted hstands =>
      rcases @resumedDeadline_left _ _ _ db runId before started resumed left hstands
        (Int.le_trans hstarted hresumed) with ⟨hgain, hcut⟩
      exact Account.Step.resume resumed _ _ hgain fun hshorter => ⟨hshorter, hcut hshorter⟩

theorem noLater_resumedDeadline (db : Database RunId CallId) (runId : RunId) (run : WorkflowRun)
    (resumed : Int) :
    NoLater (resumedDeadline db runId run resumed) run.absoluteDeadlineAt ∧
      NoLater (resumedDeadline db runId run resumed) (parentDeadline db runId) := by
  rw [resumedDeadline, least, List.foldr_cons, List.foldr_cons, List.foldr_cons, List.foldr_nil,
    earlier_none]
  exact ⟨noLater_earlier_left _ _,
    (noLater_earlier_right _ _).trans (noLater_earlier_right _ _)⟩

theorem setRun_other (db : Database RunId CallId) {runId otherId : RunId} (run : WorkflowRun)
    (h : otherId ≠ runId) : (db.setRun otherId run).runs runId = db.runs runId :=
  if_neg h.symm

theorem synchronize_other {db : Database RunId CallId} {runId otherId : RunId}
    {transaction : Transaction CallId} {result : Synchronized RunId CallId}
    (hother : otherId ≠ runId)
    (h : synchronizeHumanWait db otherId transaction = .ok result) :
    result.db.runs runId = db.runs runId := by
  rcases synchronize_change h with ⟨run, hrun, hchange⟩
  generalize result.db = next at hchange ⊢
  cases hchange with
  | unchanged => rfl
  | paused remaining hrunning hunexpired hopen hremaining => exact setRun_other db _ hother
  | resumed startedAt hpaused hunexpired => exact setRun_other _ _ hother

theorem ClockKept.step {runId : RunId} {absolute budget : Option Int}
    {watched next : Watched RunId CallId} (hstep : WaitStep runId watched next)
    (h : ClockKept runId absolute budget watched) : ClockKept runId absolute budget next := by
  rcases h with ⟨⟨run, hrun, habsolute, hbound, hlinked⟩, hwithin⟩
  cases hstep with
  | @synchronized db now account transaction result before after hnow hforward hsynchronize
      hbefore hafter =>
      dsimp only at hrun hlinked hwithin
      rcases hforward with ⟨hobserved, hanswered, hresumed, hlast, _⟩
      rw [hbefore] at hrun
      cases hrun
      rcases synchronize_change hsynchronize with ⟨found, hfound, hchange⟩
      rw [hbefore] at hfound
      cases hfound
      generalize result.db = changed at hchange hafter ⊢
      cases hchange with
      | unchanged =>
          rw [hbefore] at hafter
          cases hafter
          rw [recorded_unchanged]
          refine ⟨⟨run, hbefore, habsolute, hbound, ?_⟩, hwithin⟩
          exact hlinked.later (by dsimp only; omega)
      | paused remaining hrunning hunexpired hopen hremaining =>
          rw [setRun_runs] at hafter
          cases hafter
          have hpause := @paused_step now transaction.readings.observed run remaining
            (parentDeadline db runId) transaction.readings.resumed account hrunning (by omega)
            hopen hlinked
          refine ⟨⟨pausedRun run transaction.readings.observed remaining, setRun_runs _ _ _,
            habsolute, ?_, ?_⟩, hpause.within (by decide) hwithin⟩
          · rw [← habsolute]
            exact noLater_self run.absoluteDeadlineAt
          · rw [recorded, hrunning]
            refine Linked.paused _ _ rfl hanswered ?_
            exact standsFor_pausedRun (by rw [habsolute]; exact hbound) hremaining
      | resumed startedAt hpaused hunexpired =>
          rw [setRun_runs] at hafter
          cases hafter
          have hresume := @resumed_step _ _ _ db runId now transaction.readings.resumed startedAt
            run account hpaused (by omega) hlinked
          refine ⟨⟨resumedRun run (resumedDeadline db runId run transaction.readings.resumed),
            setRun_runs _ _ _, habsolute, ?_, ?_⟩, hresume.within (by decide) hwithin⟩
          · rw [← habsolute]
            exact (noLater_resumedDeadline db runId run _).left
          · rw [recorded, hpaused]
            exact Linked.running _ rfl hlast
  | other hother hnow hsynchronize =>
      refine ⟨⟨run, ?_, habsolute, hbound, hlinked.later hnow⟩, hwithin⟩
      exact (synchronize_other hother hsynchronize).trans hrun
  | outside hnow hclock =>
      rcases hclock run hrun with ⟨same, hsame, hclocks⟩
      refine ⟨⟨same, hsame, hclocks.right.left.trans habsolute, ?_,
        (hlinked.later hnow).sameClock hclocks⟩, hwithin⟩
      rw [hclocks.left]
      exact hbound

/-!
## What a transaction keeps
-/

/-- The deadline of a pending call that was open at the pause moves by the paused time, cut
to the deadline of its run; other calls stay. -/
def CallsMoved (runId : RunId) (readings : Readings CallId) (startedAt : Int)
    (deadline : Option Int) (calls moved : List (WorkflowCall RunId CallId)) : Prop :=
  exists move, moved = calls.map move ∧ forall call : WorkflowCall RunId CallId,
    ((call.parentRunId = runId ∧ call.status = .pending ∧
        isAfter call.deadlineAt (some startedAt) = true) ->
      exists opened shifted cut, call.deadlineAt = some opened ∧
        move call = { call with
          deadlineAt := earlier (some (opened + (shifted - startedAt))) cut } ∧
        readings.checked ≤ shifted ∧ shifted ≤ readings.resumed ∧ NoLater cut deadline ∧
        (readings.Instant -> shifted = readings.resumed ∧ cut = deadline)) ∧
    (¬ (call.parentRunId = runId ∧ call.status = .pending ∧
        isAfter call.deadlineAt (some startedAt) = true) -> move call = call)

structure TransactionKept (runId : RunId) (readings : Readings CallId)
    (db next : Database RunId CallId) (before after : WorkflowRun) : Prop where
  expired : deadlineExpired before readings.checked = true -> next = db
  once : before.humanWaitStartedAt.isSome = after.humanWaitStartedAt.isSome -> next = db
  paused : before.humanWaitStartedAt = none -> next.calls = db.calls
  parent : before.humanWaitStartedAt.isSome = true -> after.humanWaitStartedAt = none ->
    NoLater after.deadlineAt (parentDeadline db runId)
  calls : forall startedAt, before.humanWaitStartedAt = some startedAt ->
    after.humanWaitStartedAt = none ->
      CallsMoved runId readings startedAt after.deadlineAt db.calls next.calls

/-- A waiting run whose work is all with people is paused while its deadline is open, and a
paused run that has work again goes on once there is capacity. -/
structure ClockMoves (transaction : Transaction CallId) (run after : WorkflowRun) : Prop where
  pauses : forall facts, transaction.facts = some facts -> quiescent facts = true ->
    run.status = .waiting -> run.cancelRequestedAt = none -> run.humanWaitStartedAt = none ->
      (forall instant, run.deadlineAt = some instant -> transaction.readings.observed < instant) ->
        after.humanWaitStartedAt = some transaction.readings.observed
  resumes : forall facts, transaction.facts = some facts -> quiescent facts = false ->
    runUnavailable run transaction.readings.checked = false ->
      run.humanWaitStartedAt.isSome = true ->
        humanWaitCapacityAvailable facts transaction.capacityAvailable = true ->
          after.humanWaitStartedAt = none

theorem ownDeadline_mono (run : WorkflowRun) {now later : Int} (h : now ≤ later) :
    NoLater (ownDeadline run now) (ownDeadline run later) := by
  rw [ownDeadline, ownDeadline]
  cases run.remainingExecutionMs with
  | none => exact noLater_none _
  | some remaining =>
      rw [Option.map_some, Option.map_some, noLater_some]
      omega

theorem resumedDeadline_mono (db : Database RunId CallId) (runId : RunId) (run : WorkflowRun)
    {now later : Int} (h : now ≤ later) :
    NoLater (resumedDeadline db runId run now) (resumedDeadline db runId run later) := by
  simp only [resumedDeadline, least, List.foldr_cons, List.foldr_nil, earlier_none]
  apply noLater_earlier (noLater_earlier_left _ _)
  apply noLater_earlier
  · exact ((noLater_earlier_right _ _).trans (noLater_earlier_left _ _)).trans
      (ownDeadline_mono run h)
  · exact (noLater_earlier_right _ _).trans (noLater_earlier_right _ _)

theorem calls_moved {db : Database RunId CallId} {runId : RunId} {run : WorkflowRun}
    {readings : Readings CallId} {startedAt : Int} (hforward : readings.Forward)
    (hpaused : run.humanWaitStartedAt = some startedAt) :
    CallsMoved runId readings startedAt (resumedDeadline db runId run readings.resumed) db.calls
      (movedCalls db runId run readings).calls := by
  refine ⟨resumedCall db runId run readings, rfl, fun call => ⟨?_, ?_⟩⟩
  · intro hopen
    rcases hforward.right.right.right.right call.id with ⟨hfirst, hlast, _, hcut⟩
    cases hdeadline : call.deadlineAt with
    | none =>
        rw [hdeadline] at hopen
        exact absurd hopen.right.right Bool.false_ne_true
    | some deadline =>
        refine ⟨deadline, readings.callShifted call.id,
          resumedDeadline db runId run (readings.callCut call.id), rfl, ?_, hfirst, hlast,
          resumedDeadline_mono db runId run hcut, ?_⟩
        · rw [resumedCall, if_pos (by rwa [hpaused]), hdeadline, hpaused]
          rfl
        · intro hinstant
          rcases hinstant call.id with ⟨hshifted, hsame⟩
          rw [hsame]
          exact ⟨hshifted, rfl⟩
  · intro hother
    rw [resumedCall, if_neg (by rwa [hpaused])]

theorem transaction_kept {db : Database RunId CallId} {runId : RunId} {run : WorkflowRun}
    {transaction : Transaction CallId} {result : Synchronized RunId CallId}
    (hrun : db.runs runId = some run) (hforward : transaction.readings.Forward)
    (h : synchronizeHumanWait db runId transaction = .ok result) :
    exists after, result.db.runs runId = some after ∧
      TransactionKept runId transaction.readings db result.db run after := by
  rcases synchronize_change h with ⟨found, hfound, hchange⟩
  rw [hrun] at hfound
  cases hfound
  generalize result.db = next at hchange ⊢
  cases hchange with
  | unchanged =>
      refine ⟨run, hrun, fun _ => rfl, fun _ => rfl, fun _ => rfl, ?_, ?_⟩
      · intro hpaused hrunning
        rw [hrunning] at hpaused
        cases hpaused
      · intro startedAt hpaused hrunning
        rw [hrunning] at hpaused
        cases hpaused
  | paused remaining hrunning hunexpired hopen hremaining =>
      refine ⟨_, setRun_runs _ _ _, ?_, ?_, fun _ => rfl, ?_, ?_⟩
      · intro hexpired
        rw [hunexpired] at hexpired
        cases hexpired
      · intro hsame
        rw [hrunning] at hsame
        cases hsame
      · intro hpaused _
        rw [hrunning] at hpaused
        cases hpaused
      · intro startedAt hpaused _
        rw [hrunning] at hpaused
        cases hpaused
  | resumed startedAt hpaused hunexpired =>
      refine ⟨_, setRun_runs _ _ _, ?_, ?_, ?_, ?_, ?_⟩
      · intro hexpired
        rw [hunexpired] at hexpired
        cases hexpired
      · intro hsame
        rw [hpaused] at hsame
        cases hsame
      · intro hrunning
        rw [hpaused] at hrunning
        cases hrunning
      · intro _ _
        exact (noLater_resumedDeadline db runId run _).right
      · intro started hstarted _
        rw [hpaused] at hstarted
        cases hstarted
        exact calls_moved hforward hpaused

theorem pauseHumanWait_open {db next : Database RunId CallId} {runId : RunId}
    {run : WorkflowRun} {observed : Int} (hrun : db.runs runId = some run)
    (hrunning : run.humanWaitStartedAt = none)
    (hopen : forall instant, run.deadlineAt = some instant -> observed < instant)
    (h : pauseHumanWait db runId observed = .ok next) :
    exists after, next.runs runId = some after ∧ after.humanWaitStartedAt = some observed := by
  have hguard : (run.humanWaitStartedAt.isNone &&
      (run.deadlineAt.isNone || isAfter run.deadlineAt (some observed))) = true := by
    rw [hrunning]
    cases hdeadline : run.deadlineAt with
    | none => rfl
    | some deadline => simpa [isAfter] using hopen deadline hdeadline
  rw [pauseHumanWait, hrun] at h
  dsimp only at h
  rw [if_pos hguard] at h
  rcases exists_of_bind_eq_ok h with ⟨remaining, _, hrest⟩
  rcases exists_of_bind_eq_ok hrest with ⟨checked, hchecked, hnext⟩
  rw [eq_of_checkRun hchecked] at hnext
  cases hnext
  exact ⟨_, setRun_runs _ _ _, rfl⟩

theorem clock_moves {db : Database RunId CallId} {runId : RunId} {run after : WorkflowRun}
    {transaction : Transaction CallId} {result : Synchronized RunId CallId}
    (hrun : db.runs runId = some run) (hforward : transaction.readings.Forward)
    (h : synchronizeHumanWait db runId transaction = .ok result)
    (hafter : result.db.runs runId = some after) : ClockMoves transaction run after := by
  rw [synchronizeHumanWait, hrun] at h
  dsimp only at h
  constructor
  · intro facts hfacts hquiescent hstatus hcancel hrunning hopen
    have havailable : runUnavailable run transaction.readings.checked = false := by
      rw [runUnavailable, hstatus, hcancel, deadlineExpired]
      cases hdeadline : run.deadlineAt with
      | none => rfl
      | some deadline =>
          have hlater := hopen deadline hdeadline
          have hobserved := hforward.left
          simp only [Option.any_some, decide_eq_false (show ¬ deadline ≤
            transaction.readings.checked by omega)]
          rfl
    rw [havailable, hfacts] at h
    simp only [Bool.false_eq_true, if_false, hrunning, Option.isNone_none, if_true, hquiescent,
      hstatus, Bool.not_true, Bool.false_or, bne_self_eq_false] at h
    rcases exists_of_bind_eq_ok h with ⟨paused, hpause, hanswer⟩
    rcases pauseHumanWait_open hrun hrunning hopen hpause with ⟨stopped, hstopped, hstarted⟩
    rw [answer_db hanswer, hstopped] at hafter
    cases hafter
    exact hstarted
  · intro facts hfacts hquiescent havailable hpaused hcapacity
    rcases Option.isSome_iff_exists.mp hpaused with ⟨startedAt, hstarted⟩
    rw [havailable, hfacts] at h
    simp only [Bool.false_eq_true, if_false, hstarted, Option.isNone_some, hquiescent,
      Bool.not_false, if_true, hcapacity, Bool.not_true] at h
    rcases exists_of_bind_eq_ok h with ⟨resumed, hresume, hanswer⟩
    rw [resumeHumanWait, hrun] at hresume
    rcases exists_of_bind_eq_ok hresume with ⟨checked, hchecked, hnext⟩
    rw [eq_of_checkRun hchecked] at hnext
    cases hnext
    rw [answer_db hanswer, setRun_runs] at hafter
    cases hafter
    rfl

/-- Over any run of transactions the time of a run is neither spent nor extended by its
waits, but for a millisecond with every pause. -/
theorem human_wait_keeps_time {runId : RunId} {db : Database RunId CallId} {now : Int}
    {run : WorkflowRun} {watched : Watched RunId CallId} (hrun : db.runs runId = some run)
    (hunpaused : run.humanWaitStartedAt = none)
    (hdeadline : NoLater run.deadlineAt run.absoluteDeadlineAt)
    (hreach : Relation.ReflTransGen (WaitStep runId)
      { db, now, account := Account.start now run.deadlineAt } watched) :
    exists current, watched.db.runs runId = some current ∧
      current.absoluteDeadlineAt = run.absoluteDeadlineAt ∧
      NoLater current.deadlineAt run.absoluteDeadlineAt ∧
      Linked watched.now current watched.account.clock ∧
      NoLater watched.account.total
        (longer (timeBefore run.deadlineAt now) (millisecond * watched.account.pauses)) ∧
      (current.humanWaitStartedAt = none -> ¬ watched.account.cut ->
        NoLater (timeBefore run.deadlineAt now) watched.account.total) ∧
      forall transaction result, transaction.readings.Forward ->
        synchronizeHumanWait watched.db runId transaction = .ok result ->
          exists after, result.db.runs runId = some after ∧
            TransactionKept runId transaction.readings watched.db result.db current after ∧
              ClockMoves transaction current after := by
  have hkept : ClockKept runId run.absoluteDeadlineAt (timeBefore run.deadlineAt now) watched := by
    induction hreach with
    | refl =>
        refine ⟨⟨run, hrun, rfl, hdeadline, ?_⟩, Account.within_start⟩
        exact Linked.running now hunpaused (Int.le_refl now)
    | tail _ hstep ih => exact ih.step hstep
  rcases hkept with ⟨⟨current, hcurrent, habsolute, hbound, hlinked⟩, hwithin⟩
  refine ⟨current, hcurrent, habsolute, hbound, hlinked, hwithin.total_le (by decide), ?_, ?_⟩
  · intro hrunning hcut
    cases hclock : watched.account.clock with
    | running since deadline => exact hwithin.le_total hclock hcut
    | paused startedAt left =>
        rw [hclock] at hlinked
        cases hlinked with
        | paused _ _ hpaused _ _ =>
            rw [hrunning] at hpaused
            cases hpaused
  · intro transaction result hforward hsynchronize
    rcases transaction_kept hcurrent hforward hsynchronize with ⟨after, hafter, hkeptAfter⟩
    exact ⟨after, hafter, hkeptAfter, clock_moves hcurrent hforward hsynchronize hafter⟩

end

/-!
## A wait of two milliseconds
-/

def sampleRun : WorkflowRun where
  status := .waiting
  createdAt := 0
  cancelRequestedAt := none
  deadlineAt := some 10000
  absoluteDeadlineAt := some 100000
  humanWaitStartedAt := none
  remainingExecutionMs := none

def sampleDatabase : Database Nat Nat where
  runs := fun id => if id = 0 then some sampleRun else none
  calls := [{ id := 0, parentRunId := 0, childRunId := none, status := .pending,
              deadlineAt := some 9000 }]

def sampleTransaction (checked : Int) (waiting : Bool) : Transaction Nat where
  readings :=
    { checked, observed := checked + 500, callShifted := fun _ => checked + 100
      callCut := fun _ => checked + 200, resumed := checked + 500, answered := checked + 1000 }
  phase := .loading
  alreadyDeferred := false
  facts := some
    { allHumanWaiting := waiting, hasHumanWait := waiting, resumeWork := false
      lentHumanWait := false, hasRunningOrTimedWork := false, childResumeWork := false
      ancestorWaiting := false }
  capacityAvailable := true

theorem sampleTransaction_forward (checked : Int) (waiting : Bool) :
    (sampleTransaction checked waiting).readings.Forward := by
  refine ⟨?_, ?_, ?_, ?_, fun call => ⟨?_, ?_, ?_, ?_⟩⟩
  all_goals
    dsimp only [sampleTransaction]
    omega

def pausedSample : WorkflowRun :=
  pausedRun sampleRun 1500 (some 9)

theorem sampleTransaction_pauses :
    exists result, synchronizeHumanWait sampleDatabase 0 (sampleTransaction 1000 true) =
        .ok result ∧
      result.db = sampleDatabase.setRun 0 pausedSample :=
  ⟨_, rfl, rfl⟩

theorem sampleTransaction_resumes :
    exists result, synchronizeHumanWait (sampleDatabase.setRun 0 pausedSample) 0
        (sampleTransaction 3000 false) = .ok result ∧
      result.db.runs 0 = some (resumedRun pausedSample (some 12500)) ∧
      result.db.calls = [{ id := 0, parentRunId := 0, childRunId := none, status := .pending,
                           deadlineAt := some (9000 + (3100 - 1500)) }] :=
  ⟨_, rfl, rfl, rfl⟩

theorem human_wait_keeps_time_sample :
    exists (watched : Watched Nat Nat) (current : WorkflowRun),
      watched.db.runs 0 = some current ∧ current.humanWaitStartedAt = none ∧
      watched.db.calls.map WorkflowCall.deadlineAt = [some 10600] ∧
      watched.account.pauses = 1 ∧ NoLater watched.account.total (some 11000) ∧
      forall result, synchronizeHumanWait watched.db 0 (sampleTransaction 5000 true) =
          .ok result ->
        exists after, result.db.runs 0 = some after ∧ after.humanWaitStartedAt = some 5500 := by
  rcases sampleTransaction_pauses with ⟨paused, hpaused, hdb⟩
  rcases sampleTransaction_resumes with ⟨resumed, hresumed, hrun, hcalls⟩
  rw [← hdb] at hresumed
  have hstopped : paused.db.runs 0 = some pausedSample := by
    rw [hdb]
    rfl
  have hreach := (Relation.ReflTransGen.single (@WaitStep.synchronized Nat Nat _ 0
    sampleDatabase 0 (Account.start 0 (some 10000)) _ _ _ _ (show (0 : Int) ≤ 1000 by decide)
    (sampleTransaction_forward 1000 true) hpaused rfl hstopped)).tail
      (WaitStep.synchronized (show (sampleTransaction 1000 true).readings.answered ≤
          (sampleTransaction 3000 false).readings.checked by decide)
        (sampleTransaction_forward 3000 false) hresumed hstopped hrun)
  rcases @human_wait_keeps_time Nat Nat _ 0 sampleDatabase 0 sampleRun _ rfl rfl
    (noLater_some.mpr (by decide)) hreach with
    ⟨current, hcurrent, _, _, _, htotal, _, hnext⟩
  have hsame : current = resumedRun pausedSample (some 12500) :=
    Option.some.inj (hcurrent.symm.trans hrun)
  refine ⟨_, current, hcurrent, by rw [hsame]; rfl, by rw [hcalls]; rfl, rfl, htotal, ?_⟩
  intro result hresult
  rcases hnext _ result (sampleTransaction_forward 5000 true) hresult with
    ⟨after, hafter, _, hmoves⟩
  refine ⟨after, hafter, hmoves.pauses _ rfl rfl ?_ ?_ ?_ ?_⟩
  · rw [hsame]
    rfl
  · rw [hsame]
    rfl
  · rw [hsame]
    rfl
  · intro instant hinstant
    rw [hsame] at hinstant
    cases hinstant
    decide

end HumanWaits
end Pertexo
