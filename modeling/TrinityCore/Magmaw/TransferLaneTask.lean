import TrinityCore.Bots.MovementArbitration
import TrinityCore.Encounter.Blackboard

/-!
# Transfer-lane tasks

`BotMagmawTransferLaneTask.h`, `BotMagmawTransferLaneTaskRunner.cpp`,
`BotMagmawTransferLaneMovementObservation.cpp` and `BotPersistentTask.h`: one persistent
task moves one baiter to the lane, over many observations. Generations are natural numbers,
times and revisions keep their width; `std::hypot` is a parameter.
-/

namespace TrinityCore.Magmaw.TransferLane

open Encounter Bots

/-- `PersistentTaskState`. -/
inductive PersistentTaskState where
  | running
  | suspended
  | succeeded
  | failed
  | aborted
  deriving DecidableEq, Repr

/-- `PersistentTaskSuspension`. -/
inductive PersistentTaskSuspension where
  | none
  | observationUnavailable
  | safetyPreempted
  | movementLeaseExpired
  deriving DecidableEq, Repr

/-- `IsTerminal`. -/
def isTerminal (state : PersistentTaskState) : Bool :=
  state == .succeeded || state == .failed || state == .aborted

/-- `MagmawTransferLaneDirection`. -/
inductive Direction where
  | none
  | left
  | right
  deriving DecidableEq, Repr

/-- `MagmawTransferLaneFailure`. -/
inductive Failure where
  | none
  | noSemanticProgress
  deriving DecidableEq, Repr

/-- `MagmawTransferLaneNativeDisposition`. -/
inductive NativeDisposition where
  | none
  | plannerRejected
  | retained
  | submitted
  | reachedRequestedEndpointEvidence
  | reachedProjectedEndPolyEvidence
  deriving DecidableEq, Repr

/-- `MagmawTransferLaneRetirement`. -/
inductive Retirement where
  | none
  | encounterLifecycleChanged
  | raidPlanChanged
  | assignmentChanged
  | mechanicGenerationAdvanced
  | actorLifeChanged
  | actorDied
  deriving DecidableEq, Repr

/-- `MagmawTransferLaneMovementDisposition`. -/
inductive MovementDisposition where
  | noLease
  | expiredLease
  | differentScope
  | ownHazardTransfer
  | ownMechanicTransfer
  | hazardSafetyPreemption
  | recoverySafetyPreemption
  | otherCurrentLease
  deriving DecidableEq, Repr

/-- `MagmawActorLifeIdentity`. -/
structure ActorLifeIdentity where
  wipeGeneration : UInt64 := 0
  deathSequence : UInt64 := 0
  resurrectionSequence : UInt64 := 0
  authoritative : Bool := false
  deriving DecidableEq, Repr

/-- `MagmawTransferLaneEpisodeIdentity`. -/
structure EpisodeIdentity where
  lifecycle : Scope := {}
  encounter : NativeEncounterLifecycle := {}
  raidPlanGeneration : UInt64 := 0
  rosterGeneration : UInt64 := 0
  fireMageAssignmentGeneration : UInt64 := 0
  hunterAssignmentGeneration : UInt64 := 0
  fireMageAssignmentNonce : UInt64 := 0
  hunterAssignmentNonce : UInt64 := 0
  mechanicGeneration : UInt64 := 0
  episodeGeneration : Nat := 0
  deriving DecidableEq, Repr

/-- `MagmawTransferLaneEpisode`. -/
structure Episode where
  id : EpisodeIdentity := {}
  fireMageGuid : ObjectGuid := 0
  hunterGuid : ObjectGuid := 0
  direction : Direction := .none
  destination : Vector3 := {}
  createdAtRevision : UInt64 := 0

/-- `MagmawTransferLaneTaskIdentity`. -/
structure TaskIdentity where
  episode : EpisodeIdentity := {}
  actorGuid : ObjectGuid := 0
  actorLife : ActorLifeIdentity := {}
  taskGeneration : Nat := 0
  deriving DecidableEq, Repr

/-- `MagmawTransferLaneTask`. -/
structure Task where
  id : TaskIdentity := {}
  destination : Vector3 := {}
  state : PersistentTaskState := .running
  suspension : PersistentTaskSuspension := .none
  failure : Failure := .none
  initialDistance : Float32 := 0
  bestDistance : Float32 := 0
  lastDistance : Float32 := 0
  startedAtMs : UInt64 := 0
  lastProgressAtMs : UInt64 := 0
  lastObservedAtMs : UInt64 := 0
  suspendedAtMs : UInt64 := 0
  progressRevision : UInt64 := 0
  observationSamples : Nat := 0
  progressSamples : Nat := 0
  movementDisposition : MovementDisposition := .noLease
  nativeDisposition : NativeDisposition := .none
  lastNativeReceiptId : UInt64 := 0
  lastNativeObservedAtMs : UInt64 := 0
  nativeEvidenceRevision : UInt64 := 0
  nativeOutcomeSamples : Nat := 0
  projectedEndpointEvidenceSamples : Nat := 0
  lastNativeCandidateKey : String := ""

/-- `MagmawRetiredTransferLaneTask`. -/
structure RetiredTask where
  task : Task
  reason : Retirement := .none
  retiredAtRevision : UInt64 := 0

/-- `MagmawTransferLaneAuthoritySource`. -/
inductive AuthoritySource where
  | legacy
  | task
  deriving DecidableEq, Repr

/-- `MagmawTransferLaneExecutionBinding`. -/
structure ExecutionBinding where
  scopeKey : String := ""
  actor : ObjectGuid := 0
  episodeGeneration : Nat := 0
  taskGeneration : Nat := 0
  fireMageAssignmentNonce : UInt64 := 0
  hunterAssignmentNonce : UInt64 := 0
  legacyTransitionGeneration : Nat := 0
  source : AuthoritySource := .legacy
  candidateKey : String := ""
  destination : Vector3 := {}

/-- `PathEndpointResult`. -/
inductive PathEndpointResult where
  | unavailable
  | reachedRequested
  | reachedProjectedEndPoly
  | noSteer
  | corridorExhausted
  | capacity
  | failure
  deriving DecidableEq, Repr

/-- `ExecutionDisposition`. -/
inductive ExecutionDisposition where
  | unavailable
  | rejected
  | retained
  | submitted
  deriving DecidableEq, Repr

/-- What a task reads of `ExecutionObservation`. -/
structure ExecutionObservation where
  available : Bool := false
  disposition : ExecutionDisposition := .unavailable
  receiptId : UInt64 := 0
  requested : Vector3 := {}
  endpointResult : PathEndpointResult := .unavailable
  corridorReachedEndPoly : Bool := false
  resolvedEndpointAvailable : Bool := false
  actualEndpointMatchedResolved : Bool := false
  requestedEndpointMatched : Bool := false

/-- `MagmawTransferLaneNativeOutcome`. -/
structure NativeOutcome where
  binding : ExecutionBinding := {}
  movement : ExecutionObservation := {}
  observedAtMs : UInt64 := 0

/-- `MagmawTransferLaneActorObservation`; the movement observation is its lease. -/
structure ActorObservation where
  guid : ObjectGuid := 0
  life : ActorLifeIdentity := {}
  position : Vector3 := {}
  positionObserved : Bool := false
  alive : Bool := false
  currentLease : Option MovementArbitration.Lease := none
  nativeOutcome : Option NativeOutcome := none

/-- `MagmawTransferLaneLeaseDestinationTolerance2d`. -/
def leaseDestinationTolerance2d : Float32 := 0.25

/-- `MagmawTransferLaneLeaseDestinationToleranceZ`. -/
def leaseDestinationToleranceZ : Float32 := 0.5

/-- `ArrivalTolerance`. -/
def arrivalTolerance : Float32 := 4

/-- `ProgressEpsilon`. -/
def progressEpsilon : Float32 := 0.5

/-- `NoProgressFailureMs`. -/
def noProgressFailureMs : UInt64 := 5000

/-! ### The movement observation -/

section

variable (hypot : Float32 → Float32 → Float32)

/-- `MatchesImmutableDestination`. -/
def matchesImmutableDestination (lease : MovementArbitration.Lease) (destination : Vector3) :
    Bool :=
  lease.dynamicTargetGuid == 0
    && decide (hypot (lease.x - destination.x) (lease.y - destination.y)
      ≤ leaseDestinationTolerance2d)
    && decide ((lease.z - destination.z).abs ≤ leaseDestinationToleranceZ)

/-- `MagmawTransferLaneMovementScope`. -/
def movementScope (lifecycle : Scope) : MovementArbitration.Scope :=
  ⟨lifecycle.attemptId, lifecycle.wipeGeneration, lifecycle.routeGeneration, lifecycle.mapId,
    lifecycle.instanceId⟩

/-- `ClassifyMagmawTransferLaneMovementObservation`. -/
def classifyMovementObservation (observedAtMs : UInt64) (taskScope : MovementArbitration.Scope)
    (immutableDestination : Vector3) (currentLease : Option MovementArbitration.Lease) :
    MovementDisposition :=
  match currentLease with
  | none => .noLease
  | some lease =>
    if lease.movementOwner == .none then .noLease
    else if lease.expiresAtMs ≤ observedAtMs then .expiredLease
    else if !MovementArbitration.sameScope lease.movementScope taskScope then .differentScope
    else if lease.movementOwner == .recovery then .recoverySafetyPreemption
    else
      let matched := matchesImmutableDestination hypot lease immutableDestination
      if lease.movementOwner == .hazard then
        if matched then .ownHazardTransfer else .hazardSafetyPreemption
      else if lease.movementOwner == .mechanic && matched then .ownMechanicTransfer
      else .otherCurrentLease

/-- `IsMagmawTransferLaneSafetyPreemption`. -/
def isSafetyPreemption (disposition : MovementDisposition) : Bool :=
  disposition == .hazardSafetyPreemption || disposition == .recoverySafetyPreemption

/-! ### The task runner -/

/-- `DestinationMatches`. -/
def destinationMatches (left right : Vector3) : Bool :=
  decide (hypot (left.x - right.x) (left.y - right.y) ≤ leaseDestinationTolerance2d)
    && decide ((left.z - right.z).abs ≤ leaseDestinationToleranceZ)

/-- `CandidateIdentity::Key` for this task's mechanic. -/
def candidateKey (scopeKey : String) (actor : ObjectGuid) (eventGeneration : Nat) : String :=
  scopeKey ++ ":adaptive_magmaw:pillar_bait_switch:" ++ ObjectGuid.text actor ++ ":"
    ++ toString eventGeneration

variable (task : Task)

/-- `ExpectedCandidateKey`. -/
def expectedCandidateKey (binding : ExecutionBinding) : String :=
  candidateKey task.id.episode.lifecycle.key task.id.actorGuid
    (if binding.source == .task then task.id.taskGeneration
      else binding.legacyTransitionGeneration)

/-- `Correlates`. -/
def correlates (outcome : NativeOutcome) : Bool :=
  let binding := outcome.binding
  binding.scopeKey == task.id.episode.lifecycle.key
    && binding.actor == task.id.actorGuid
    && binding.episodeGeneration == task.id.episode.episodeGeneration
    && binding.taskGeneration == task.id.taskGeneration
    && binding.fireMageAssignmentNonce == task.id.episode.fireMageAssignmentNonce
    && binding.hunterAssignmentNonce == task.id.episode.hunterAssignmentNonce
    && binding.legacyTransitionGeneration != 0
    && binding.candidateKey == expectedCandidateKey task binding
    && destinationMatches hypot binding.destination task.destination
    && outcome.observedAtMs != 0
    && outcome.movement.available
    && destinationMatches hypot outcome.movement.requested task.destination

/-- `AlreadyObserved`. -/
def alreadyObserved (outcome : NativeOutcome) : Bool :=
  outcome.movement.receiptId != 0
    && outcome.movement.receiptId == task.lastNativeReceiptId
    && outcome.observedAtMs == task.lastNativeObservedAtMs
    && outcome.binding.candidateKey == task.lastNativeCandidateKey

/-- The end of `ObserveNativeOutcome`: what the native movement says. -/
def noteNativeOutcome (movement : ExecutionObservation) (revision : UInt64) : Task :=
  if movement.receiptId != 0 && movement.endpointResult == .reachedProjectedEndPoly
      && movement.corridorReachedEndPoly && movement.resolvedEndpointAvailable
      && movement.actualEndpointMatchedResolved && !movement.requestedEndpointMatched then
    { task with
      nativeDisposition := .reachedProjectedEndPolyEvidence
      nativeEvidenceRevision := revision
      projectedEndpointEvidenceSamples := task.projectedEndpointEvidenceSamples + 1 }
  else if movement.receiptId != 0 && movement.endpointResult == .reachedRequested
      && movement.requestedEndpointMatched then
    { task with
      nativeDisposition := .reachedRequestedEndpointEvidence
      nativeEvidenceRevision := revision }
  else if movement.disposition == .submitted then { task with nativeDisposition := .submitted }
  else if movement.disposition == .retained then { task with nativeDisposition := .retained }
  else { task with nativeDisposition := .plannerRejected }

/-- `ObserveNativeOutcome`. -/
def observeNativeOutcome (actor : ActorObservation) (board : Blackboard) : Task :=
  match actor.nativeOutcome with
  | none => task
  | some outcome =>
    if !correlates hypot task outcome || alreadyObserved task outcome then task
    else
      noteNativeOutcome
        { task with
          lastNativeReceiptId := outcome.movement.receiptId
          lastNativeObservedAtMs := outcome.observedAtMs
          lastNativeCandidateKey := outcome.binding.candidateKey
          nativeOutcomeSamples := task.nativeOutcomeSamples + 1 }
        outcome.movement board.revision

/-- `Suspend`. -/
def suspend (suspension : PersistentTaskSuspension) (observedAtMs : UInt64) : Task :=
  { task with
    suspendedAtMs :=
      if task.state != .suspended || task.suspendedAtMs == 0 then observedAtMs
      else task.suspendedAtMs
    state := .suspended
    suspension := suspension }

/-- `Resume`. -/
def resume (observedAtMs : UInt64) : Task :=
  { task with
    lastProgressAtMs :=
      if task.state == .suspended && task.suspendedAtMs != 0
          && decide (observedAtMs > task.suspendedAtMs) then
        task.lastProgressAtMs + (observedAtMs - task.suspendedAtMs)
      else task.lastProgressAtMs
    suspendedAtMs := 0
    state := .running
    suspension := .none }

/-- The progress branch of `ObserveDistance`. -/
def noteDistance (distance : Float32) (board : Blackboard) : Task :=
  let task := { task with lastDistance := distance }
  if distance + progressEpsilon < task.bestDistance then
    { task with
      bestDistance := distance
      lastProgressAtMs := board.observedAtMs
      progressRevision := board.revision
      progressSamples := task.progressSamples + 1
      suspendedAtMs :=
        if task.state == .suspended then board.observedAtMs else task.suspendedAtMs }
  else task

/-- `ObserveDistance`: the task, and whether the actor has arrived. -/
def observeDistance (actor : ActorObservation) (board : Blackboard) : Task × Bool :=
  let task :=
    { task with
      lastObservedAtMs := board.observedAtMs
      observationSamples := task.observationSamples + 1 }
  if (actor.position.z - task.destination.z).abs > leaseDestinationToleranceZ then (task, false)
  else
    let distance :=
      hypot (actor.position.x - task.destination.x) (actor.position.y - task.destination.y)
    (noteDistance task distance board, decide (distance ≤ arrivalTolerance))

/-- The end of `Observe`, with the actor's position: arrival, or failure for want of
progress. -/
def settle (arrived : Bool) (board : Blackboard) : Task :=
  if arrived then { task with state := .succeeded, suspension := .none, suspendedAtMs := 0 }
  else if board.observedAtMs > task.lastProgressAtMs
      && decide (board.observedAtMs - task.lastProgressAtMs ≥ noProgressFailureMs) then
    { task with state := .failed, failure := .noSemanticProgress }
  else task

/-- `MagmawTransferLaneTaskRunner::Observe`. -/
def observe (actor : ActorObservation) (board : Blackboard) : Task :=
  if isTerminal task.state then task
  else
    let task := observeNativeOutcome hypot task actor board
    let task :=
      { task with
        movementDisposition :=
          classifyMovementObservation hypot board.observedAtMs
            (movementScope task.id.episode.lifecycle) task.destination actor.currentLease }
    if !actor.positionObserved then suspend task .observationUnavailable board.observedAtMs
    else
      let safetyPreempted := isSafetyPreemption task.movementDisposition
      let task := if safetyPreempted then task else resume task board.observedAtMs
      let (task, arrived) := observeDistance hypot task actor board
      if safetyPreempted then suspend task .safetyPreempted board.observedAtMs
      else settle task arrived board

end

end TrinityCore.Magmaw.TransferLane
