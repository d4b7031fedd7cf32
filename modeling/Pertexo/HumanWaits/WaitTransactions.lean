import Pertexo.Library.PausableBudgets
import Pertexo.Library.Results

/-!
# The clock of a run that waits for people

Instants and durations are microseconds, as the database holds them. A query that reads
`clock_timestamp()` several times may read several instants.
-/

namespace Pertexo
namespace HumanWaits

open Library

inductive RunStatus where
  | queued
  | running
  | waiting
  | succeeded
  | failed
  | canceled
  | timedOut
  | outcomeUnknown
  deriving DecidableEq, Repr

inductive CallStatus where
  | pending
  | accepted
  | refused
  | succeeded
  | failed
  | canceled
  | timedOut
  | outcomeUnknown
  deriving DecidableEq, Repr

structure WorkflowRun where
  status : RunStatus
  createdAt : Int
  cancelRequestedAt : Option Int
  deadlineAt : Option Int
  absoluteDeadlineAt : Option Int
  humanWaitStartedAt : Option Int
  remainingExecutionMs : Option Int

structure WorkflowCall (RunId : Type) (CallId : Type) where
  id : CallId
  parentRunId : RunId
  childRunId : Option RunId
  status : CallStatus
  deadlineAt : Option Int

structure Database (RunId : Type) (CallId : Type) where
  runs : RunId -> Option WorkflowRun
  calls : List (WorkflowCall RunId CallId)

inductive DatabaseFailure where
  | integerOutOfRange
  | humanWaitValid
  | deadlineValid
  | runUnavailable
  | factsUnavailable
  deriving DecidableEq, Repr

/-!
## SQL values
-/

def earlier : Option Int -> Option Int -> Option Int
  | none, right => right
  | some left, none => some left
  | some left, some right => some (min left right)

/-- `LEAST` and `min` pass over NULL. -/
def least (values : List (Option Int)) : Option Int :=
  values.foldr earlier none

/-- A comparison with NULL is not true. -/
def isAfter : Option Int -> Option Int -> Bool
  | some left, some right => decide (right < left)
  | _, _ => false

def millisecond : Int :=
  1000

/-- `ceil(extract(epoch from span) * 1000)::integer`. -/
def wholeMilliseconds (span : Int) : Except DatabaseFailure Int :=
  let whole := -(-span / millisecond)
  if -2147483648 ≤ whole ∧ whole ≤ 2147483647 then .ok whole else .error .integerOutOfRange

/-!
## Constraints of a run
-/

def humanWaitValid (run : WorkflowRun) : Bool :=
  match run.humanWaitStartedAt, run.remainingExecutionMs with
  | none, none => true
  | none, some _ => false
  | some _, remaining =>
      remaining.all (fun remaining => decide (0 < remaining) && decide (remaining ≤ 3600000)) &&
        !([RunStatus.queued, RunStatus.running].contains run.status) &&
          decide (run.deadlineAt = run.absoluteDeadlineAt)

def deadlineValid (run : WorkflowRun) : Bool :=
  run.deadlineAt.all fun deadline => decide (run.createdAt < deadline)

def checkRun (run : WorkflowRun) : Except DatabaseFailure WorkflowRun :=
  if !humanWaitValid run then .error .humanWaitValid
  else if !deadlineValid run then .error .deadlineValid
  else .ok run

section

variable {RunId CallId : Type} [DecidableEq RunId]

def Database.setRun (db : Database RunId CallId) (runId : RunId) (run : WorkflowRun) :
    Database RunId CallId :=
  { db with runs := fun id => if id = runId then some run else db.runs id }

/-!
## Pausing and resuming
-/

/-- What a transaction reads from the clock, in the order of its statements. Every call
that is moved reads the clock for itself. -/
structure Readings (CallId : Type) where
  checked : Int
  observed : Int
  callShifted : CallId -> Int
  callCut : CallId -> Int
  resumed : Int
  answered : Int

/-- A null deadline is open, and one that equals the absolute deadline is no budget of its own. -/
def remainingAt (run : WorkflowRun) (observed : Int) : Except DatabaseFailure (Option Int) :=
  match run.deadlineAt with
  | none => .ok none
  | some deadline =>
      if run.absoluteDeadlineAt = some deadline then .ok none
      else (wholeMilliseconds (deadline - observed)).map some

def pauseHumanWait (db : Database RunId CallId) (runId : RunId) (observed : Int) :
    Except DatabaseFailure (Database RunId CallId) :=
  match db.runs runId with
  | none => .ok db
  | some run =>
      if run.humanWaitStartedAt.isNone &&
          (run.deadlineAt.isNone || isAfter run.deadlineAt (some observed)) then do
        let remaining ← remainingAt run observed
        let paused ← checkRun { run with
          humanWaitStartedAt := some observed
          remainingExecutionMs := remaining
          deadlineAt := run.absoluteDeadlineAt }
        return db.setRun runId paused
      else .ok db

/-- The earliest deadline of a run that has called this one and awaits it. -/
def parentDeadline (db : Database RunId CallId) (runId : RunId) : Option Int :=
  least ((db.calls.filter fun incoming =>
      decide (incoming.childRunId = some runId) && decide (incoming.status = .accepted)).map
    fun incoming => (db.runs incoming.parentRunId).bind WorkflowRun.deadlineAt)

/-- `clock_timestamp() + remaining * interval '1 millisecond'`. -/
def ownDeadline (run : WorkflowRun) (now : Int) : Option Int :=
  run.remainingExecutionMs.map fun remaining => now + remaining * millisecond

def resumedCall (db : Database RunId CallId) (runId : RunId) (run : WorkflowRun)
    (readings : Readings CallId) (call : WorkflowCall RunId CallId) :
    WorkflowCall RunId CallId :=
  if call.parentRunId = runId ∧ call.status = .pending ∧
      isAfter call.deadlineAt run.humanWaitStartedAt = true then
    { call with deadlineAt := least [
        (call.deadlineAt.bind fun deadline => run.humanWaitStartedAt.map fun startedAt =>
          deadline + (readings.callShifted call.id - startedAt)),
        run.absoluteDeadlineAt,
        ownDeadline run (readings.callCut call.id),
        parentDeadline db runId] }
  else call

def resumedDeadline (db : Database RunId CallId) (runId : RunId) (run : WorkflowRun)
    (resumed : Int) : Option Int :=
  least [run.absoluteDeadlineAt, ownDeadline run resumed, parentDeadline db runId]

def resumeHumanWait (db : Database RunId CallId) (runId : RunId) (readings : Readings CallId) :
    Except DatabaseFailure (Database RunId CallId) :=
  match db.runs runId with
  | none => .ok db
  | some run => do
      let moved := { db with calls := db.calls.map (resumedCall db runId run readings) }
      let resumed ← checkRun { run with
        humanWaitStartedAt := none
        deadlineAt := resumedDeadline moved runId run readings.resumed
        remainingExecutionMs := none }
      return moved.setRun runId resumed

/-!
## Synchronization
-/

structure HumanWaitFacts where
  allHumanWaiting : Bool
  hasHumanWait : Bool
  resumeWork : Bool
  lentHumanWait : Bool
  hasRunningOrTimedWork : Bool
  childResumeWork : Bool
  ancestorWaiting : Bool

structure HumanWaitState where
  humanWaitStartedAt : Option Int
  deadlineAt : Option Int
  deadlineExpired : Bool
  humanResumeDeferred : Bool

inductive Phase where
  | loading
  | committed
  deriving DecidableEq, Repr

inductive Wakeup (RunId : Type) where
  | taskAncestors (runId : RunId)
  | now (runId : RunId)
  | soon (runId : RunId)

structure Transaction (CallId : Type) where
  readings : Readings CallId
  phase : Phase
  alreadyDeferred : Bool
  facts : Option HumanWaitFacts
  capacityAvailable : Bool

def deadlineExpired (run : WorkflowRun) (now : Int) : Bool :=
  run.deadlineAt.any fun deadline => decide (deadline ≤ now)

def stateOf (run : WorkflowRun) (now : Int) (deferred : Bool) : HumanWaitState where
  humanWaitStartedAt := run.humanWaitStartedAt
  deadlineAt := run.deadlineAt
  deadlineExpired := deadlineExpired run now
  humanResumeDeferred := deferred

def runUnavailable (run : WorkflowRun) (now : Int) : Bool :=
  !([RunStatus.running, RunStatus.waiting].contains run.status) ||
    run.cancelRequestedAt.isSome || deadlineExpired run now

def quiescent (facts : HumanWaitFacts) : Bool :=
  facts.allHumanWaiting && facts.hasHumanWait && !facts.resumeWork ||
    facts.lentHumanWait && !facts.hasRunningOrTimedWork && !facts.childResumeWork

def humanWaitCapacityAvailable (facts : HumanWaitFacts) (capacityAvailable : Bool) : Bool :=
  !facts.ancestorWaiting && capacityAvailable

def wakeRelations (db : Database RunId CallId) (runId : RunId) : List (Wakeup RunId) :=
  .taskAncestors runId :: ((db.calls.filter fun call =>
    decide (call.parentRunId = runId) && decide (call.status = .accepted)).filterMap fun call =>
      call.childRunId.map Wakeup.now)

structure Synchronized (RunId : Type) (CallId : Type) where
  db : Database RunId CallId
  wakeups : List (Wakeup RunId)
  state : HumanWaitState

def answer (db : Database RunId CallId) (runId : RunId) (wakeups : List (Wakeup RunId))
    (transaction : Transaction CallId) :
    Except DatabaseFailure (Synchronized RunId CallId) :=
  match db.runs runId with
  | none => .error .runUnavailable
  | some row =>
      .ok { db, wakeups,
            state := stateOf row transaction.readings.answered transaction.alreadyDeferred }

def synchronizeHumanWait (db : Database RunId CallId) (runId : RunId)
    (transaction : Transaction CallId) :
    Except DatabaseFailure (Synchronized RunId CallId) :=
  match db.runs runId with
  | none => .error .runUnavailable
  | some run =>
      let unchanged := stateOf run transaction.readings.checked transaction.alreadyDeferred
      if runUnavailable run transaction.readings.checked then
        .ok { db, wakeups := [], state := unchanged }
      else
        match transaction.facts with
        | none => .error .factsUnavailable
        | some facts =>
            if run.humanWaitStartedAt.isNone then
              if !quiescent facts || run.status != .waiting then
                .ok { db, wakeups := [], state := unchanged }
              else do
                let paused ← pauseHumanWait db runId transaction.readings.observed
                answer paused runId (wakeRelations paused runId) transaction
            else if !quiescent facts then
              if !humanWaitCapacityAvailable facts transaction.capacityAvailable then
                .ok { db
                      wakeups := if transaction.alreadyDeferred then [] else [.soon runId]
                      state := { unchanged with humanResumeDeferred := true } }
              else do
                let resumed ← resumeHumanWait db runId transaction.readings
                answer resumed runId (wakeRelations resumed runId ++
                  if transaction.phase = .committed then [.now runId] else []) transaction
            else .ok { db, wakeups := [], state := unchanged }

end

/-!
## Least deadlines
-/

theorem noLater_earlier_left (left right : Option Int) : NoLater (earlier left right) left := by
  cases left with
  | none => exact noLater_none _
  | some left =>
      cases right with
      | none => exact Int.le_refl left
      | some right => exact Int.min_le_left left right

theorem noLater_earlier_right (left right : Option Int) : NoLater (earlier left right) right := by
  cases right with
  | none => exact noLater_none _
  | some right =>
      cases left with
      | none => exact Int.le_refl right
      | some left => exact Int.min_le_right left right

theorem earlier_eq (left right : Option Int) :
    earlier left right = left ∨ earlier left right = right := by
  cases left with
  | none => exact Or.inr rfl
  | some left =>
      cases right with
      | none => exact Or.inl rfl
      | some right =>
          rcases min_choice left right with hmin | hmin
          · exact Or.inl (congrArg some hmin)
          · exact Or.inr (congrArg some hmin)

theorem noLater_earlier {time left right : Option Int} (hleft : NoLater time left)
    (hright : NoLater time right) : NoLater time (earlier left right) := by
  rcases earlier_eq left right with heq | heq
  · rwa [heq]
  · rwa [heq]

theorem earlier_none (time : Option Int) : earlier time none = time := by
  cases time <;> rfl

/-!
## Three outcomes

A transaction leaves the clock alone, pauses it or resumes it.
-/

section

variable {RunId CallId : Type} [DecidableEq RunId]

def pausedRun (run : WorkflowRun) (observed : Int) (remaining : Option Int) : WorkflowRun :=
  { run with
    humanWaitStartedAt := some observed
    remainingExecutionMs := remaining
    deadlineAt := run.absoluteDeadlineAt }

def resumedRun (run : WorkflowRun) (deadline : Option Int) : WorkflowRun :=
  { run with
    humanWaitStartedAt := none
    deadlineAt := deadline
    remainingExecutionMs := none }

def movedCalls (db : Database RunId CallId) (runId : RunId) (run : WorkflowRun)
    (readings : Readings CallId) : Database RunId CallId :=
  { db with calls := db.calls.map (resumedCall db runId run readings) }

inductive ClockChange (db : Database RunId CallId) (runId : RunId) (run : WorkflowRun)
    (readings : Readings CallId) : Database RunId CallId -> Prop where
  | unchanged : ClockChange db runId run readings db
  | paused (remaining : Option Int) (hrunning : run.humanWaitStartedAt = none)
      (hunexpired : deadlineExpired run readings.checked = false)
      (hopen : forall instant, run.deadlineAt = some instant -> readings.observed < instant)
      (hremaining : remainingAt run readings.observed = .ok remaining) :
      ClockChange db runId run readings
        (db.setRun runId (pausedRun run readings.observed remaining))
  | resumed (startedAt : Int) (hpaused : run.humanWaitStartedAt = some startedAt)
      (hunexpired : deadlineExpired run readings.checked = false) :
      ClockChange db runId run readings
        ((movedCalls db runId run readings).setRun runId
          (resumedRun run (resumedDeadline db runId run readings.resumed)))

theorem eq_of_checkRun {run checked : WorkflowRun} (h : checkRun run = .ok checked) :
    checked = run := by
  rw [checkRun] at h
  split at h
  · cases h
  · split at h
    · cases h
    · exact (Except.ok.inj h).symm

theorem setRun_runs (db : Database RunId CallId) (runId : RunId) (run : WorkflowRun) :
    (db.setRun runId run).runs runId = some run :=
  if_pos rfl

theorem parentDeadline_movedCalls (db : Database RunId CallId) (runId child : RunId)
    (run : WorkflowRun) (readings : Readings CallId) :
    parentDeadline (movedCalls db runId run readings) child = parentDeadline db child := by
  have hcall : forall call, (resumedCall db runId run readings call).childRunId = call.childRunId ∧
      (resumedCall db runId run readings call).status = call.status ∧
        (resumedCall db runId run readings call).parentRunId = call.parentRunId := by
    intro call
    rw [resumedCall]
    split
    · exact ⟨rfl, rfl, rfl⟩
    · exact ⟨rfl, rfl, rfl⟩
  rw [parentDeadline, parentDeadline, movedCalls]
  dsimp only
  rw [List.filter_map, List.map_map]
  congr 1
  have hfilter : (fun incoming : WorkflowCall RunId CallId =>
      decide (incoming.childRunId = some child) && decide (incoming.status = .accepted)) ∘
        resumedCall db runId run readings = fun incoming =>
      decide (incoming.childRunId = some child) && decide (incoming.status = .accepted) := by
    funext call
    rcases hcall call with ⟨hchild, hstatus, _⟩
    simp only [Function.comp, hchild, hstatus]
  rw [hfilter]
  apply List.map_congr_left
  intro call _
  rw [Function.comp, (hcall call).right.right]

theorem pause_change {db next : Database RunId CallId} {runId : RunId} {run : WorkflowRun}
    {readings : Readings CallId} (hrun : db.runs runId = some run)
    (hunexpired : deadlineExpired run readings.checked = false)
    (h : pauseHumanWait db runId readings.observed = .ok next) :
    ClockChange db runId run readings next := by
  rw [pauseHumanWait, hrun] at h
  dsimp only at h
  split at h
  · next hguard =>
    rw [Bool.and_eq_true, Option.isNone_iff_eq_none, Bool.or_eq_true,
      Option.isNone_iff_eq_none] at hguard
    rcases exists_of_bind_eq_ok h with ⟨remaining, hremaining, hrest⟩
    rcases exists_of_bind_eq_ok hrest with ⟨checked, hchecked, hnext⟩
    rw [eq_of_checkRun hchecked] at hnext
    cases hnext
    refine ClockChange.paused remaining hguard.left hunexpired ?_ hremaining
    intro instant hinstant
    rcases hguard.right with hnull | hafter
    · rw [hinstant] at hnull
      cases hnull
    · rw [hinstant, isAfter] at hafter
      exact of_decide_eq_true hafter
  · cases h
    exact ClockChange.unchanged

theorem resume_change {db next : Database RunId CallId} {runId : RunId} {run : WorkflowRun}
    {readings : Readings CallId} {startedAt : Int} (hrun : db.runs runId = some run)
    (hpaused : run.humanWaitStartedAt = some startedAt)
    (hunexpired : deadlineExpired run readings.checked = false)
    (h : resumeHumanWait db runId readings = .ok next) :
    ClockChange db runId run readings next := by
  rw [resumeHumanWait, hrun] at h
  rcases exists_of_bind_eq_ok h with ⟨checked, hchecked, hnext⟩
  rw [eq_of_checkRun hchecked] at hnext
  cases hnext
  have hdeadline : resumedDeadline (movedCalls db runId run readings) runId run
      readings.resumed = resumedDeadline db runId run readings.resumed := by
    rw [resumedDeadline, resumedDeadline, parentDeadline_movedCalls]
  rw [movedCalls] at hdeadline
  rw [hdeadline]
  exact ClockChange.resumed startedAt hpaused hunexpired

omit [DecidableEq RunId] in
theorem answer_db {db : Database RunId CallId} {runId : RunId} {wakeups : List (Wakeup RunId)}
    {transaction : Transaction CallId} {result : Synchronized RunId CallId}
    (h : answer db runId wakeups transaction = .ok result) : result.db = db := by
  rw [answer] at h
  split at h
  · cases h
  · cases h
    rfl

theorem synchronize_change {db : Database RunId CallId} {runId : RunId}
    {transaction : Transaction CallId} {result : Synchronized RunId CallId}
    (h : synchronizeHumanWait db runId transaction = .ok result) :
    exists run, db.runs runId = some run ∧
      ClockChange db runId run transaction.readings result.db := by
  rw [synchronizeHumanWait] at h
  split at h
  · cases h
  · next run hrun =>
    refine ⟨run, hrun, ?_⟩
    dsimp only at h
    split at h
    · cases h
      exact ClockChange.unchanged
    · next havailable =>
      have hunexpired : deadlineExpired run transaction.readings.checked = false := by
        rw [runUnavailable, Bool.or_eq_true, not_or] at havailable
        exact Bool.not_eq_true _ |>.mp havailable.right
      split at h
      · cases h
      · next facts hfacts =>
        split at h
        · split at h
          · cases h
            exact ClockChange.unchanged
          · rcases exists_of_bind_eq_ok h with ⟨paused, hpause, hanswer⟩
            rw [answer_db hanswer]
            exact pause_change hrun hunexpired hpause
        · next hpaused =>
          split at h
          · split at h
            · cases h
              exact ClockChange.unchanged
            · rcases exists_of_bind_eq_ok h with ⟨resumed, hresume, hanswer⟩
              rw [answer_db hanswer]
              rcases Option.ne_none_iff_exists'.mp
                (fun hnone => hpaused (Option.isNone_iff_eq_none.mpr hnone)) with
                ⟨startedAt, hstarted⟩
              exact resume_change hrun hstarted hunexpired hresume
          · cases h
            exact ClockChange.unchanged

end

end HumanWaits
end Pertexo
