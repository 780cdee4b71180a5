import Mathlib.Init

/-!
# Action lifecycles

The outcome of one attempt and the per-key lifecycle of `BotActionArbiter.h`: how a
failure backs off, and what a commit, a decline or a timed wait does to the backoff.
-/

namespace TrinityCore.Bots.ActionArbitration

/-- `Disposition`: whether another candidate may run during this tick. -/
inductive Disposition where
  | notApplicable
  | retryable
  | unsafeToTry
  | committed
  | terminal
  deriving DecidableEq, Repr

/-- `Phase`: what happened to the action. -/
inductive Phase where
  | proposed
  | deferred
  | selected
  | submitted
  | started
  | progressed
  | completed
  | failed
  | terminal
  deriving DecidableEq, Repr

/-- `Outcome` of one attempt. -/
structure Outcome where
  result : Disposition := .notApplicable
  reason : String := "not_applicable"
  lifecyclePhase : Phase := .deferred
  retryAtMs : UInt64 := 0
  deriving DecidableEq, Repr

namespace Outcome

/-- `Outcome::Retryable`. -/
def retryable (reason : String) : Outcome := ⟨.retryable, reason, .failed, 0⟩

/-- `Outcome::Committed`. -/
def committed (reason : String) : Outcome := ⟨.committed, reason, .completed, 0⟩

/-- `Outcome::Progressed`. -/
def progressed (reason : String) : Outcome := ⟨.committed, reason, .progressed, 0⟩

/-- `Outcome::Terminal`. -/
def terminal (reason : String) : Outcome := ⟨.terminal, reason, .terminal, 0⟩

end Outcome

/-- `Lifecycle` of one action key. -/
structure Lifecycle where
  currentPhase : Phase := .proposed
  lastDisposition : Disposition := .notApplicable
  lastReason : String := "not_attempted"
  firstFailureAtMs : UInt64 := 0
  lastAttemptAtMs : UInt64 := 0
  lastProgressAtMs : UInt64 := 0
  retryAfterMs : UInt64 := 0
  attemptCount : UInt32 := 0
  consecutiveFailures : UInt32 := 0
  escalateAfter : UInt8 := 5
  deriving DecidableEq, Repr

namespace Lifecycle

/-- The streak of failures is over; what `Committed` and `NotApplicable` share. -/
def resetFailures (lifecycle : Lifecycle) : Lifecycle :=
  { lifecycle with consecutiveFailures := 0, firstFailureAtMs := 0, retryAfterMs := 0 }

/-- The backoff of a failure that is not a timed wait. -/
def fail (lifecycle : Lifecycle) (nowMs : UInt64) (retryBaseMs retryMaxMs : UInt32) :
    Lifecycle :=
  let failures := lifecycle.consecutiveFailures + 1
  let shift := min (failures - 1) 8
  let delay := retryBaseMs.toUInt64 <<< shift.toUInt64
  { lifecycle with
    firstFailureAtMs :=
      if lifecycle.consecutiveFailures = 0 then nowMs else lifecycle.firstFailureAtMs
    consecutiveFailures := failures
    retryAfterMs := nowMs + min retryMaxMs.toUInt64 delay }

/-- `Kernel::Observe` on the lifecycle of the observed key. -/
def observe (lifecycle : Lifecycle) (outcome : Outcome) (nowMs : UInt64)
    (retryBaseMs retryMaxMs : UInt32) (escalateAfter : UInt8) : Lifecycle :=
  let lifecycle :=
    { lifecycle with
      currentPhase := outcome.lifecyclePhase
      lastDisposition := outcome.result
      lastReason := outcome.reason
      lastAttemptAtMs := nowMs
      escalateAfter := escalateAfter }
  match outcome.result with
  | .committed =>
    let lifecycle := lifecycle.resetFailures
    if outcome.lifecyclePhase = .progressed ∨ outcome.lifecyclePhase = .completed then
      { lifecycle with lastProgressAtMs := nowMs }
    else lifecycle
  | .notApplicable => lifecycle.resetFailures
  | .retryable =>
    -- a timed wait keeps the failure streak it meets
    if outcome.retryAtMs ≠ 0 then
      { lifecycle with
        retryAfterMs := min (max outcome.retryAtMs nowMs) (nowMs + retryMaxMs.toUInt64) }
    else lifecycle.fail nowMs retryBaseMs retryMaxMs
  | .unsafeToTry => lifecycle.fail nowMs retryBaseMs retryMaxMs
  | .terminal => lifecycle.fail nowMs retryBaseMs retryMaxMs

/-- `Kernel::ShouldEscalate` on the lifecycle of its key. -/
def shouldEscalate (lifecycle : Lifecycle) (nowMs minimumFailureDurationMs : UInt64) : Bool :=
  lifecycle.escalateAfter.toUInt32 ≤ lifecycle.consecutiveFailures &&
    lifecycle.firstFailureAtMs != 0 &&
    lifecycle.firstFailureAtMs + minimumFailureDurationMs ≤ nowMs

end Lifecycle

end TrinityCore.Bots.ActionArbitration
