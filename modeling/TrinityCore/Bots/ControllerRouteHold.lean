import Mathlib.Data.List.Infix
import TrinityCore.Bots.ActionArbiter

/-!
# The controller route hold

`BotControllerRouteHold` of `BotChainwielderOwnerCheckpoint.h`: the phases of a hold, its seven
operations, and the admission policy that they install in the decision kernel.
-/

namespace TrinityCore.Bots.ControllerRouteHold

open ActionArbitration (AdmissionClass AdmissionMetadata Proposal ResourceMask conflicts)

/-- `Phase`. -/
inductive Phase where
  | disabled
  | acquiring
  | held
  | armed
  | checkpointTerminal
  | released
  | failed
  deriving DecidableEq, Repr

/-- `Admission`. -/
inductive Admission where
  | ordinary
  | formationMovement
  | friendlyHealing
  | bagConsumable
  | offenseSuppression
  | defensiveSurvival
  | checkpointObservation
  deriving DecidableEq, Repr

/-- `IsLowerHex`; the length is in bytes. -/
def isLowerHex (value : String) (length : Nat) : Bool :=
  value.utf8ByteSize == length
    && value.toList.all fun character =>
      ('0' ≤ character && character ≤ '9') || ('a' ≤ character && character ≤ 'f')

/-- `Identity`. -/
structure Identity where
  cohortId : String := ""
  serverEpoch : UInt64 := 0
  attemptId : UInt64 := 0
  scenarioId : String := ""
  runtimeProfile : String := ""
  routeManifestSha256 : String := ""
  routeGeneration : UInt64 := 0
  routeNodeId : String := ""
  actorGuid : UInt32 := 0
  fixtureId : String := ""
  sealSha256 : String := ""
  sourceCommit : String := ""
  deriving DecidableEq, Repr

namespace Identity

/-- `SameCore`. -/
def sameCore (identity other : Identity) : Bool :=
  identity.cohortId == other.cohortId && identity.serverEpoch == other.serverEpoch
    && identity.attemptId == other.attemptId && identity.actorGuid == other.actorGuid
    && identity.fixtureId == other.fixtureId && identity.sealSha256 == other.sealSha256
    && identity.sourceCommit == other.sourceCommit

/-- `ValidBootstrap`. -/
def validBootstrap (identity : Identity) : Bool :=
  identity.cohortId != "" && identity.serverEpoch != 0 && identity.attemptId != 0
    && identity.actorGuid != 0 && identity.fixtureId != "" && isLowerHex identity.sealSha256 64
    && isLowerHex identity.sourceCommit 40

/-- `ValidComplete`. -/
def validComplete (identity : Identity) : Bool :=
  identity.validBootstrap && identity.scenarioId != "" && identity.runtimeProfile != ""
    && isLowerHex identity.routeManifestSha256 64 && identity.routeGeneration != 0
    && identity.routeNodeId != ""

/-- `ScopeKey`. -/
def scopeKey (identity : Identity) : String :=
  identity.cohortId ++ ":" ++ toString identity.serverEpoch.toNat ++ ":"
    ++ toString identity.attemptId.toNat ++ ":" ++ toString identity.routeGeneration.toNat ++ ":"
    ++ toString identity.actorGuid.toNat

end Identity

/-- `TransitionResult`. -/
structure TransitionResult where
  accepted : Bool := false
  reason : String := ""
  deriving DecidableEq, Repr

/-- `State`. -/
structure State where
  currentPhase : Phase := .disabled
  scope : Identity := {}
  acquireCount : UInt32 := 0
  armAckCount : UInt32 := 0
  releaseCount : UInt32 := 0
  suppressedRouteActionCount : UInt64 := 0
  suppressedRouteAdvanceCount : UInt64 := 0
  acquiredAtMs : UInt64 := 0
  armedAtMs : UInt64 := 0
  terminalAtMs : UInt64 := 0
  releasedAtMs : UInt64 := 0
  checkpointStage : String := "disabled"
  checkpointTerminal : Bool := false
  checkpointIdentityPreserved : Bool := false
  failureReason : String := ""
  deriving DecidableEq, Repr

namespace State

variable (state : State)

/-- `Holding`. -/
def holding : Bool :=
  state.currentPhase == .acquiring || state.currentPhase == .held
    || state.currentPhase == .armed || state.currentPhase == .checkpointTerminal
    || state.currentPhase == .failed

/-- `Reject`. -/
def reject (reason : String) (retainReleased : Bool) : State × TransitionResult :=
  ({ state with
      failureReason := if state.failureReason = "" then reason else state.failureReason
      currentPhase := if retainReleased then state.currentPhase else .failed },
    { accepted := false, reason := reason })

/-- `BeginAcquire`. -/
def beginAcquire (bootstrap : Identity) (nowMs : UInt64) : State × TransitionResult :=
  if state.holding && state.scope.attemptId == bootstrap.attemptId then
    state.reject "controller_route_hold_duplicate_acquire" false
  else if !bootstrap.validBootstrap then
    reject {} "controller_route_hold_bootstrap_identity_invalid" false
  else
    ({ scope := bootstrap, currentPhase := .acquiring, acquiredAtMs := nowMs },
      { accepted := true, reason := "controller_route_hold_acquire_started" })

variable (identity : Identity)

/-- `CompleteAcquire`. -/
def completeAcquire (nowMs : UInt64) : State × TransitionResult :=
  if state.currentPhase ≠ .acquiring then
    state.reject "controller_route_hold_acquire_not_pending" false
  else if !identity.validComplete || !state.scope.sameCore identity then
    state.reject "controller_route_hold_acquire_identity_drift" false
  else
    ({ state with
        scope := identity, currentPhase := .held, acquireCount := 1, acquiredAtMs := nowMs },
      { accepted := true, reason := "controller_route_hold_acquired" })

/-- `ValidateIdentity`. -/
def validateIdentity : State × Bool :=
  if state.currentPhase = .disabled ∨ state.currentPhase = .released then (state, true)
  else if state.scope = identity then (state, true)
  else ((state.reject "controller_route_hold_identity_drift" false).1, false)

/-- `AcknowledgeArm`. -/
def acknowledgeArm (nowMs : UInt64) : State × TransitionResult :=
  if state.currentPhase = .armed ∨ state.armAckCount ≠ 0 then
    state.reject "controller_route_hold_duplicate_arm" false
  else if state.currentPhase ≠ .held then
    state.reject "controller_route_hold_arm_before_acquire" false
  else
    let (state, valid) := state.validateIdentity identity
    if !valid then (state, { accepted := false, reason := state.failureReason })
    else
      ({ state with currentPhase := .armed, armAckCount := 1, armedAtMs := nowMs },
        { accepted := true, reason := "controller_route_hold_arm_acknowledged" })

/-- `ObserveCheckpointTerminal`. -/
def observeCheckpointTerminal (stage : String)
    (terminal identityPreserved : Bool) (nowMs : UInt64) : State × TransitionResult :=
  if state.currentPhase ≠ .armed then
    state.reject "controller_route_hold_checkpoint_terminal_stale" false
  else
    let (state, valid) := state.validateIdentity identity
    if !valid then (state, { accepted := false, reason := state.failureReason })
    else
      let state : State := { state with
        checkpointStage := stage
        checkpointTerminal := terminal
        checkpointIdentityPreserved := identityPreserved
        terminalAtMs := nowMs }
      if !terminal then state.reject "controller_route_hold_checkpoint_terminal_missing" false
      else if !identityPreserved then
        state.reject "controller_route_hold_checkpoint_identity_not_preserved" false
      else
        ({ state with currentPhase := .checkpointTerminal },
          { accepted := true, reason := "controller_route_hold_checkpoint_terminal" })

/-- `Release`. -/
def release (nowMs : UInt64) : State × TransitionResult :=
  if state.currentPhase = .released ∨ state.releaseCount ≠ 0 then
    state.reject "controller_route_hold_duplicate_release" true
  else if state.currentPhase ≠ .checkpointTerminal then
    state.reject "controller_route_hold_release_before_terminal" false
  else
    let (state, valid) := state.validateIdentity identity
    if !valid then (state, { accepted := false, reason := state.failureReason })
    else
      ({ state with currentPhase := .released, releaseCount := 1, releasedAtMs := nowMs },
        { accepted := true, reason := "controller_route_hold_released" })

/-- `AdmitCandidate`. -/
def admitCandidate (actingActorGuid : UInt32)
    (classification : Admission) (survival movement : Bool) : State × Bool :=
  if !state.holding then (state, true)
  else
    let (state, _) := state.validateIdentity identity
    let safe := classification == .formationMovement || classification == .friendlyHealing
      || classification == .bagConsumable || classification == .offenseSuppression
      || classification == .defensiveSurvival
      || (survival && (!movement || actingActorGuid != state.scope.actorGuid))
    let checkpointObservation := classification == .checkpointObservation
      && state.currentPhase == .armed && actingActorGuid == state.scope.actorGuid
    if safe || checkpointObservation then (state, true)
    else
      ({ state with suppressedRouteActionCount := state.suppressedRouteActionCount + 1 }, false)

/-- `PermitRouteAdvance`. -/
def permitRouteAdvance (prospectiveGeneration : UInt64) : State × Bool :=
  if state.currentPhase = .disabled ∨ state.currentPhase = .released then (state, true)
  else
    let initialBootstrap := identity.sameCore state.scope && identity.routeGeneration == 0
      && prospectiveGeneration == 1
    if state.currentPhase = .acquiring ∧ initialBootstrap = true then (state, true)
    else
      let state :=
        if state.currentPhase = .acquiring then
          (state.reject "controller_route_hold_bootstrap_route_drift" false).1
        else (state.validateIdentity identity).1
      ({ state with suppressedRouteAdvanceCount := state.suppressedRouteAdvanceCount + 1 }, false)

end State

/-- Whether a string has another as a part. -/
def containsText (text part : String) : Bool := decide (part.toList <:+: text.toList)

/-- `ClassifyCandidate`. -/
def classifyCandidate (candidate : Proposal) (metadata : Option AdmissionMetadata)
    (hold : State) : Admission :=
  let classification : AdmissionClass := match metadata with
    | some metadata => metadata.classification
    | none => .unknown
  let classification : AdmissionClass :=
    if classification = .unknown then
      if candidate.source = "raid_prepull_consumables" then .bagConsumable
      else if candidate.source = "adaptive_raid_support" then .friendlyHealing
      else if containsText candidate.key "formation" then .formationMovement
      else if containsText candidate.key "suppress" then .offenseSuppression
      else .unknown
    else classification
  let inScope := match metadata with
    | some metadata => metadata.scopeKey == hold.scope.scopeKey
    | none => false
  let classification : AdmissionClass :=
    if classification = .controllerCheckpointObservation
        ∧ (inScope = false ∨ candidate.source ≠ "validation_route_adapter") then .unknown
    else classification
  match classification with
  | .formationMovement => .formationMovement
  | .friendlyHealing => .friendlyHealing
  | .bagConsumable => .bagConsumable
  | .offenseSuppression => .offenseSuppression
  | .defensiveSurvival => .defensiveSurvival
  | .controllerCheckpointObservation => .checkpointObservation
  | .unknown => .ordinary

/-- `Uses(Resource::Movement)`. -/
def movementResource : ResourceMask := 4

/-- The admission policy that `InstallAdmissionPolicy` sets: what a call of it leaves of the hold,
and the reason to reject a candidate, empty to admit it. -/
def admissionPolicy (hold : State) (identity : Identity) (actingActorGuid : UInt32)
    (candidate : Proposal) (metadata : Option AdmissionMetadata) : State × String :=
  let (hold, admitted) := hold.admitCandidate identity actingActorGuid
    (classifyCandidate candidate metadata hold) (candidate.actionPriority == .survival)
    (conflicts candidate.requiredResources movementResource)
  (hold, if admitted then "" else "controller_route_hold_suppressed")

/-- The operations of a hold with their arguments. -/
inductive Call where
  | beginAcquire (bootstrap : Identity) (nowMs : UInt64)
  | completeAcquire (identity : Identity) (nowMs : UInt64)
  | acknowledgeArm (identity : Identity) (nowMs : UInt64)
  | observeCheckpointTerminal (identity : Identity) (stage : String)
      (terminal identityPreserved : Bool) (nowMs : UInt64)
  | release (identity : Identity) (nowMs : UInt64)
  | admitCandidate (identity : Identity) (actingActorGuid : UInt32) (classification : Admission)
      (survival movement : Bool)
  | permitRouteAdvance (identity : Identity) (prospectiveGeneration : UInt64)
  | validateIdentity (identity : Identity)
  deriving DecidableEq, Repr

/-- What a call leaves of the state, and whether it was accepted. -/
def State.perform (state : State) (call : Call) : State × Bool :=
  match call with
  | .beginAcquire bootstrap nowMs =>
    ((state.beginAcquire bootstrap nowMs).1, (state.beginAcquire bootstrap nowMs).2.accepted)
  | .completeAcquire identity nowMs =>
    ((state.completeAcquire identity nowMs).1, (state.completeAcquire identity nowMs).2.accepted)
  | .acknowledgeArm identity nowMs =>
    ((state.acknowledgeArm identity nowMs).1, (state.acknowledgeArm identity nowMs).2.accepted)
  | .observeCheckpointTerminal identity stage terminal identityPreserved nowMs =>
    let (state, result) :=
      state.observeCheckpointTerminal identity stage terminal identityPreserved nowMs
    (state, result.accepted)
  | .release identity nowMs =>
    ((state.release identity nowMs).1, (state.release identity nowMs).2.accepted)
  | .admitCandidate identity actingActorGuid classification survival movement =>
    state.admitCandidate identity actingActorGuid classification survival movement
  | .permitRouteAdvance identity prospectiveGeneration =>
    state.permitRouteAdvance identity prospectiveGeneration
  | .validateIdentity identity => state.validateIdentity identity

end TrinityCore.Bots.ControllerRouteHold
