import Pertexo.Engine.PersistedFacts

/-!
# Decisions on failed attempts

## Deciding on one observation
-/

namespace Pertexo
namespace Engine

def ExecutorErrorKind.text : ExecutorErrorKind -> String
  | .authentication => "authentication"
  | .canceled => "canceled"
  | .configuration => "configuration"
  | .internal => "internal"
  | .network => "network"
  | .provider => "provider"
  | .rateLimit => "rate_limit"
  | .timeout => "timeout"

namespace Retries

inductive AttemptObservation where
  | success
  | definiteFailure (errorCode : String)
  | ambiguous (possiblyDispatched : Bool)
  | executorFailure (recommendation : ExecutorFailureKind) (errorKind : ExecutorErrorKind)
      (possiblyDispatched : Bool) (minimumRetryDelayMillis : Option Nat)
deriving DecidableEq, Repr

structure RetryPolicy where
  maximumAttempts : Nat
  baseDelayMs : Nat
  maximumDelayMs : Nat
  retryableErrorCodes : List String
deriving DecidableEq, Repr

inductive RetryDecision where
  | succeeded
  | failed (reasonCode : String)
  | outcomeUnknown
  | retry (attemptNumber delayMs : Nat)
deriving DecidableEq, Repr

structure RetryInput where
  sideEffectClass : SideEffectClass
  currentAttemptNumber : Nat
  policy : RetryPolicy
  settings : Option StepRetrySettings
  observation : AttemptObservation
  jitterIdentity : Option String
deriving DecidableEq, Repr

namespace AttemptObservation

def isUncertain : AttemptObservation -> Bool
  | .ambiguous _ => true
  | .executorFailure recommendation _ _ _ =>
      recommendation == .outcomeUnknown || recommendation == .retry
  | _ => false

def wasPossiblyDispatched : AttemptObservation -> Bool
  | .ambiguous possiblyDispatched => possiblyDispatched
  | .executorFailure _ _ possiblyDispatched _ => possiblyDispatched
  | _ => false

def isCanceled : AttemptObservation -> Bool
  | .executorFailure recommendation _ _ _ => recommendation == .canceled
  | _ => false

/-- The delay a provider asks for; only an executor failure carries one. -/
def minimumDelayMillis : AttemptObservation -> Nat
  | .executorFailure _ _ _ minimumRetryDelayMillis => minimumRetryDelayMillis.getD 0
  | _ => 0

end AttemptObservation

def mayHaveUnsafeEffect (input : RetryInput) : Bool :=
  input.observation.isUncertain && input.observation.wasPossiblyDispatched &&
    input.sideEffectClass == .unsafeEffect

def retryErrorCode : AttemptObservation -> String
  | .definiteFailure errorCode => errorCode
  | .executorFailure _ errorKind _ _ => errorKind.text
  | _ => "ambiguous"

def observationAllowsRetry (observation : AttemptObservation) (policy : RetryPolicy)
    (errorCode : String) : Bool :=
  match observation with
  | .ambiguous _ => true
  | .executorFailure recommendation _ _ _ =>
      (recommendation == .retry || recommendation == .outcomeUnknown) &&
        policy.retryableErrorCodes.contains errorCode
  | _ => policy.retryableErrorCodes.contains errorCode

/-- The settings of a step stand before the policy. -/
def allowedAttempts (policy : RetryPolicy) (settings : Option StepRetrySettings) : Nat :=
  (settings.map StepRetrySettings.maximumAttempts).getD policy.maximumAttempts

def boundedDelay (input : RetryInput) : Nat :=
  match input.settings with
  | some settings => settings.delayMillis
  | none =>
      min input.policy.maximumDelayMs
        (input.policy.baseDelayMs * 2 ^ (input.currentAttemptNumber - 1))

/-- A chosen delay is kept, and a delay of the policy is spread by the digest of the attempt. -/
def jittered (jitteredDelay : Nat -> String -> Nat) (input : RetryInput) : Nat :=
  match input.settings, input.jitterIdentity with
  | none, some identity => jitteredDelay (boundedDelay input) identity
  | _, _ => boundedDelay input

def decideRetry (jitteredDelay : Nat -> String -> Nat) (input : RetryInput) : RetryDecision :=
  if input.observation = .success then .succeeded
  else if input.observation.isCanceled then .failed "canceled"
  else if mayHaveUnsafeEffect input then .outcomeUnknown
  else
    let errorCode := retryErrorCode input.observation
    let nextAttemptNumber := input.currentAttemptNumber + 1
    if !observationAllowsRetry input.observation input.policy errorCode ||
        allowedAttempts input.policy input.settings < nextAttemptNumber then
      .failed errorCode
    else
      .retry nextAttemptNumber
        (min input.policy.maximumDelayMs
          (max (jittered jitteredDelay input) input.observation.minimumDelayMillis))

structure IsBoundedRetry (input : RetryInput) (attemptNumber delayMs : Nat) : Prop where
  next : attemptNumber = input.currentAttemptNumber + 1
  allowed : attemptNumber ≤ allowedAttempts input.policy input.settings
  dispatch : input.observation.isUncertain = true ->
    input.observation.wasPossiblyDispatched = true -> input.sideEffectClass ≠ .unsafeEffect
  provider : min input.observation.minimumDelayMillis input.policy.maximumDelayMs ≤ delayMs
  maximum : delayMs ≤ input.policy.maximumDelayMs

theorem decideRetry_retry {jitteredDelay : Nat -> String -> Nat} {input : RetryInput}
    {attemptNumber delayMs : Nat}
    (h : decideRetry jitteredDelay input = .retry attemptNumber delayMs) :
    IsBoundedRetry input attemptNumber delayMs := by
  unfold decideRetry at h
  split at h
  · cases h
  · split at h
    · cases h
    · split at h
      · cases h
      · rename_i hsafe
        dsimp only at h
        split at h
        · cases h
        · rename_i hretries
          rw [Bool.or_eq_true, not_or, decide_eq_true_eq, Nat.not_lt] at hretries
          cases h
          refine ⟨rfl, hretries.right, ?_, ?_, Nat.min_le_left ..⟩
          · intro huncertain hdispatched hclass
            apply hsafe
            rw [mayHaveUnsafeEffect, huncertain, hdispatched, hclass]
            rfl
          · rw [Nat.min_comm]
            exact Nat.le_min.mpr
              ⟨Nat.min_le_left .., Nat.le_trans (Nat.min_le_right ..) (Nat.le_max_right ..)⟩

/-!
## The policy of the engine
-/

def ENGINE_RETRY_POLICY : RetryPolicy :=
  { maximumAttempts := 3
    baseDelayMs := 1000
    maximumDelayMs := maximumRetryDelayMillis
    retryableErrorCodes := ["rate_limit", "timeout", "network", "provider"] }

/-- What the coordinator asks about a failed attempt. -/
def inputOfFailure (runId : String) (failure : AttemptFailure) (node : NodeRecord) :
    RetryInput :=
  { sideEffectClass := node.sideEffectClass
    currentAttemptNumber := failure.attempt.attemptNumber
    policy := ENGINE_RETRY_POLICY
    settings := node.retry
    observation :=
      .executorFailure failure.failureKind failure.errorKind failure.possiblyDispatched
        failure.minimumRetryDelayMillis
    jitterIdentity :=
      some
        (runId ++ "\x00" ++ failure.attempt.invocationKey ++ "\x00" ++
          toString failure.attempt.attemptNumber ++ "\x00engine.retry@1") }

end Retries

end Engine
end Pertexo
