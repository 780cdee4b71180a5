import TrinityCore.Bots.MovementArbitration
import TrinityCore.Lib.StateMachine

/-!
# Vehicle-exit landing

`BotServerVehicleExitLanding.h`: after a bot leaves a vehicle its stale falling flag is
cleared only on proof of a landing. An episode follows the occupancy, the exit, the ground
POINT submitted for it and the receipt bound to it. The native-fall launch is
`StartVehicleExitNativeFall` of `BotWorldPopulationMgrUpdateBotPreparation.cpp`. The
`Last…` diagnosis fields are written and never read here; they are left out.
-/

namespace TrinityCore.Bots.VehicleExitLanding

open MovementArbitration

/-- `NativeFall`. -/
structure NativeFall where
  attempted : Bool := false
  submittedAtMs : UInt64 := 0
  splineId : UInt32 := 0
  destinationX : Float32 := 0
  destinationY : Float32 := 0
  destinationZ : Float32 := 0

/-- `Episode`. -/
structure Episode where
  vehicleObserved : Bool := false
  vehicleOccupiedLastTick : Bool := false
  observedVehicleGuid : UInt64 := 0
  occupiedBotGuid : UInt64 := 0
  occupiedMapId : UInt32 := 0
  occupiedInstanceId : UInt32 := 0
  occupiedScopeAvailable : Bool := false
  occupiedScope : Scope := {}
  exitPending : Bool := false
  exitObservedAtMs : UInt64 := 0
  exitBotGuid : UInt64 := 0
  exitMapId : UInt32 := 0
  exitInstanceId : UInt32 := 0
  exitScopeAvailable : Bool := false
  exitScope : Scope := {}
  boundGroundingReceiptId : UInt64 := 0
  boundGroundingReceiptArmedAtMs : UInt64 := 0
  submittedGroundReceiptId : UInt64 := 0
  groundSubmittedAtMs : UInt64 := 0
  awaitingGroundReceipt : Bool := false
  submittedBotGuid : UInt64 := 0
  submittedMapId : UInt32 := 0
  submittedInstanceId : UInt32 := 0
  submittedScope : Scope := {}
  fall : NativeFall := {}

/-- `VehicleTransitionObservation`. -/
structure VehicleTransitionObservation where
  hasVehicle : Bool := false
  vehicleGuid : UInt64 := 0
  botGuid : UInt64 := 0
  mapId : UInt32 := 0
  instanceId : UInt32 := 0
  observedAtMs : UInt64 := 0
  scopeAvailable : Bool := false
  currentScope : Scope := {}

/-- `SameEpisodeScope`. -/
def sameEpisodeScope (left right : Scope) : Bool :=
  left.attemptId == right.attemptId
    && left.wipeGeneration == right.wipeGeneration
    && left.routeGeneration == right.routeGeneration
    && left.mapId == right.mapId
    && left.instanceId == right.instanceId

/-- The comparison covers every field of a scope. -/
@[simp] theorem sameEpisodeScope_iff {left right : Scope} :
    sameEpisodeScope left right = true ↔ left = right := by
  cases left
  cases right
  simp [sameEpisodeScope, and_assoc]

variable (episode : Episode)

/-- `ResetBoundReceipt`. -/
def resetBoundReceipt : Episode :=
  { episode with
    boundGroundingReceiptId := 0
    boundGroundingReceiptArmedAtMs := 0 }

/-- `ResetSubmittedReceipt`. -/
def resetSubmittedReceipt : Episode :=
  { episode with
    submittedGroundReceiptId := 0
    groundSubmittedAtMs := 0
    awaitingGroundReceipt := false
    submittedBotGuid := 0
    submittedMapId := 0
    submittedInstanceId := 0
    submittedScope := {} }

/-- The submission `RememberGroundPointSubmission` is called with. -/
structure GroundPointSubmission where
  receiptId : UInt64
  botGuid : UInt64
  mapId : UInt32
  instanceId : UInt32
  submittedAtMs : UInt64
  scope : Scope

variable (submission : GroundPointSubmission)

/-- A submission refused for a pending exit: not the exit's identity, or made before it. -/
def refusedByExit : Bool :=
  episode.exitPending
    && (submission.botGuid != episode.exitBotGuid || submission.mapId != episode.exitMapId
      || submission.instanceId != episode.exitInstanceId
      || decide (submission.submittedAtMs < episode.exitObservedAtMs)
      || (episode.exitScopeAvailable
        && !sameEpisodeScope submission.scope episode.exitScope))

/-- A submission refused while mounted: not the occupant's identity. -/
def refusedByOccupancy : Bool :=
  episode.vehicleOccupiedLastTick
    && (submission.botGuid != episode.occupiedBotGuid
      || submission.mapId != episode.occupiedMapId
      || submission.instanceId != episode.occupiedInstanceId
      || !episode.occupiedScopeAvailable
      || !sameEpisodeScope submission.scope episode.occupiedScope)

/-- A submission not newer than the one remembered. -/
def refusedAsOlder : Bool :=
  episode.submittedGroundReceiptId != 0
    && (decide (submission.submittedAtMs < episode.groundSubmittedAtMs)
      || (submission.submittedAtMs == episode.groundSubmittedAtMs
        && decide (submission.receiptId ≤ episode.submittedGroundReceiptId)))

/-- `RememberGroundPointSubmission`. -/
def rememberGroundPointSubmission : Episode × Bool :=
  if submission.receiptId == 0 || submission.botGuid == 0 || submission.submittedAtMs == 0
      || submission.scope.mapId != submission.mapId
      || submission.scope.instanceId != submission.instanceId then (episode, false)
  else if refusedByExit episode submission then (episode, false)
  else if refusedByOccupancy episode submission then (episode, false)
  else if refusedAsOlder episode submission then (episode, false)
  else
    ({ episode with
      submittedBotGuid := submission.botGuid
      submittedMapId := submission.mapId
      submittedInstanceId := submission.instanceId
      submittedScope := submission.scope
      submittedGroundReceiptId := submission.receiptId
      groundSubmittedAtMs := submission.submittedAtMs
      awaitingGroundReceipt := true }, true)

variable (observation : VehicleTransitionObservation)

/-- `SameSubmissionIdentity`. -/
def sameSubmissionIdentity : Bool :=
  observation.scopeAvailable
    && episode.submittedBotGuid == observation.botGuid
    && episode.submittedMapId == observation.mapId
    && episode.submittedInstanceId == observation.instanceId
    && sameEpisodeScope episode.submittedScope observation.currentScope
    && decide (episode.groundSubmittedAtMs ≤ observation.observedAtMs)

/-- Keep the remembered submission or reset it. -/
def carryOrReset (carrySubmission : Bool) (episode : Episode) : Episode :=
  if carrySubmission then episode else resetSubmittedReceipt episode

/-- `BeginVehicleOccupancy`: a mount closes any older exit episode. -/
def beginVehicleOccupancy : Episode :=
  let carrySubmission := !episode.vehicleOccupiedLastTick && !episode.exitPending
    && observation.vehicleGuid != 0 && sameSubmissionIdentity episode observation
  carryOrReset carrySubmission <| resetBoundReceipt
    { episode with
      vehicleObserved := true
      vehicleOccupiedLastTick := true
      observedVehicleGuid := observation.vehicleGuid
      occupiedBotGuid := observation.botGuid
      occupiedMapId := observation.mapId
      occupiedInstanceId := observation.instanceId
      occupiedScopeAvailable := observation.scopeAvailable
      occupiedScope := observation.currentScope
      exitPending := false
      exitObservedAtMs := 0
      exitBotGuid := 0
      exitMapId := 0
      exitInstanceId := 0
      exitScopeAvailable := false
      exitScope := {}
      fall := {} }

/-- `SameOccupancyIdentity`. -/
def sameOccupancyIdentity : Bool :=
  episode.occupiedBotGuid == observation.botGuid
    && episode.occupiedMapId == observation.mapId
    && episode.occupiedInstanceId == observation.instanceId
    && episode.occupiedScopeAvailable == observation.scopeAvailable
    && (!observation.scopeAvailable
      || sameEpisodeScope episode.occupiedScope observation.currentScope)

/-- The exit transition of `ObserveVehicleTransition`: occupied on the last tick, no vehicle
now. -/
def beginExit : Episode :=
  let carrySubmission := episode.observedVehicleGuid != 0
    && sameOccupancyIdentity episode observation
    && decide (observation.observedAtMs ≥ episode.groundSubmittedAtMs)
  carryOrReset carrySubmission <| resetBoundReceipt
    { episode with
      vehicleObserved := true
      vehicleOccupiedLastTick := false
      exitPending := true
      exitObservedAtMs := observation.observedAtMs
      exitBotGuid := observation.botGuid
      exitMapId := observation.mapId
      exitInstanceId := observation.instanceId
      exitScopeAvailable := observation.scopeAvailable
      exitScope := observation.currentScope
      fall := {} }

/-- `ObserveVehicleTransition`. -/
def observeVehicleTransition : Episode :=
  if observation.hasVehicle then
    if !episode.vehicleOccupiedLastTick
        || episode.observedVehicleGuid != observation.vehicleGuid
        || !sameOccupancyIdentity episode observation then
      beginVehicleOccupancy episode observation
    else episode
  else if !episode.vehicleOccupiedLastTick then
    if !episode.exitPending && !sameSubmissionIdentity episode observation then
      resetSubmittedReceipt episode
    else episode
  else beginExit episode observation

/-- `ReceiptBindingObservation`. -/
structure ReceiptBindingObservation where
  actualPointSubmission : Bool := false
  progressReceiptArmed : Bool := false
  receiptId : UInt64 := 0
  botGuid : UInt64 := 0
  mapId : UInt32 := 0
  instanceId : UInt32 := 0
  armedAtMs : UInt64 := 0
  scopeAvailable : Bool := false
  receiptScope : Scope := {}
  splineInitialized : Bool := false
  splineId : UInt32 := 0

/-- `BindGroundingReceipt`. Only a strictly newer receipt replaces a bound one. -/
def bindGroundingReceipt (receipt : ReceiptBindingObservation) : Episode × Bool :=
  if !episode.exitPending || !receipt.actualPointSubmission || !receipt.progressReceiptArmed
      || receipt.receiptId == 0 || receipt.botGuid == 0
      || !receipt.splineInitialized || receipt.splineId == 0 then (episode, false)
  else if receipt.botGuid != episode.exitBotGuid || receipt.mapId != episode.exitMapId
      || receipt.instanceId != episode.exitInstanceId
      || decide (receipt.armedAtMs < episode.exitObservedAtMs) then (episode, false)
  else if receipt.scopeAvailable != episode.exitScopeAvailable
      || (episode.exitScopeAvailable
        && !sameEpisodeScope receipt.receiptScope episode.exitScope) then (episode, false)
  else if episode.boundGroundingReceiptId != 0
      && !(decide (receipt.armedAtMs > episode.boundGroundingReceiptArmedAtMs)
        || (receipt.armedAtMs == episode.boundGroundingReceiptArmedAtMs
          && decide (receipt.receiptId > episode.boundGroundingReceiptId))) then (episode, false)
  else
    ({ episode with
      boundGroundingReceiptId := receipt.receiptId
      boundGroundingReceiptArmedAtMs := receipt.armedAtMs }, true)

/-- What `BindSubmittedGroundReceipt` reads of a movement progress observation. -/
structure Progress where
  available : Bool := false
  receiptId : UInt64 := 0
  supersededByReceiptId : UInt64 := 0
  terminal : Bool := false
  terminalOutcome : String := "pending"
  armedAtMs : UInt64 := 0
  botGuid : UInt64 := 0
  mapId : UInt32 := 0
  instanceId : UInt32 := 0
  scope : Scope := {}
  launchedSplineInitialized : Bool := false
  launchedSplineId : UInt32 := 0

/-- The candidate `BindSubmittedGroundReceipt` builds from a progress. -/
def bindingCandidate (progress : Progress) : ReceiptBindingObservation :=
  { actualPointSubmission := true
    progressReceiptArmed := true
    receiptId := progress.receiptId
    botGuid := progress.botGuid
    mapId := progress.mapId
    instanceId := progress.instanceId
    armedAtMs := progress.armedAtMs
    scopeAvailable := episode.exitScopeAvailable
    receiptScope := progress.scope
    splineInitialized := progress.launchedSplineInitialized
    splineId := progress.launchedSplineId }

/-- `BindSubmittedGroundReceipt`. -/
def bindSubmittedGroundReceipt (progress : Progress) : Episode × Bool :=
  if !episode.awaitingGroundReceipt || !progress.available
      || progress.receiptId != episode.submittedGroundReceiptId then (episode, false)
  else if progress.supersededByReceiptId != 0
      || (progress.terminal && progress.terminalOutcome != "selected_endpoint_reached") then
    ({ episode with awaitingGroundReceipt := false }, false)
  -- a delayed launch has timestamp zero until its first authoritative sample
  else if progress.armedAtMs == 0
      || decide (progress.armedAtMs < episode.groundSubmittedAtMs) then (episode, false)
  else if progress.armedAtMs < episode.exitObservedAtMs then
    (resetSubmittedReceipt episode, false)
  else
    let (bound, accepted) := bindGroundingReceipt episode (bindingCandidate episode progress)
    if accepted then ({ bound with awaitingGroundReceipt := false }, true) else (bound, false)

/-- What `Resolve` reads of `LandingEvidence`. -/
structure LandingEvidence where
  botGuid : UInt64 := 0
  mapId : UInt32 := 0
  instanceId : UInt32 := 0
  currentScopeAvailable : Bool := false
  currentScope : Scope := {}
  actorInWorld : Bool := false
  actorAlive : Bool := false
  hasVehicle : Bool := false
  hasTransport : Bool := false
  gravityDisabled : Bool := false
  nativeFlight : Bool := false
  controlledState : Bool := false
  fallingFlagsPresent : Bool := false
  nativeFalling : Bool := false
  currentSplineFinalized : Bool := false
  motionSlotsSettled : Bool := false
  rooted : Bool := false
  nativeFallObservation : Bool := false
  verticalMovementFlags : Bool := false
  splineInitialized : Bool := false
  splineId : UInt32 := 0
  nativeFloorValid : Bool := false
  nativeFloorGap : Float32 := 0
  nativeFallEndpointMatches : Bool := false
  nativeFallDestinationMatches : Bool := false
  receiptAvailable : Bool := false
  receiptId : UInt64 := 0
  receiptBotGuid : UInt64 := 0
  receiptMapId : UInt32 := 0
  receiptInstanceId : UInt32 := 0
  receiptArmedAtMs : UInt64 := 0
  receiptScopeAvailable : Bool := false
  receiptScope : Scope := {}
  receiptTerminal : Bool := false
  receiptSuperseded : Bool := false
  receiptTerminalOutcome : String := "pending"
  terminalSampleAvailable : Bool := false
  terminalActorAlive : Bool := false
  terminalActorInWorld : Bool := false
  terminalEndpointReached : Bool := false
  terminalFloorValid : Bool := false
  terminalPlatformCompatible : Bool := false
  currentEndpointMatches : Bool := false

/-- `Decision`. -/
inductive Decision where
  | noEpisode
  | keepPending
  | closeEpisode
  | startNativeFall
  | clearStaleLandingFlag
  deriving DecidableEq, Repr

/-- `ReconciliationResult`. -/
structure ReconciliationResult where
  decision : Decision := .noEpisode
  dropBoundReceipt : Bool := false
  reason : String := "no_vehicle_exit_episode"
  deriving DecidableEq, Repr

/-- `Keep`. -/
def keep (reason : String) (dropReceipt : Bool := false) : ReconciliationResult :=
  ⟨.keepPending, dropReceipt, reason⟩

/-- `NativePathEndpointVerticalTolerance`. -/
def nativePathEndpointVerticalTolerance : Float32 := 1.5

variable (evidence : LandingEvidence)

/-- The branch of `Resolve` for an exit without a ground POINT: a native fall comes first. -/
def resolveNativeFall : ReconciliationResult :=
  if evidence.rooted || evidence.verticalMovementFlags then
    keep "vehicle_exit_native_fall_controlled_motion"
  else if episode.fall.attempted && episode.fall.splineId == 0 then
    keep "vehicle_exit_native_fall_launch_unobserved"
  else if episode.fall.splineId != 0
      && (evidence.splineId != episode.fall.splineId
        || !evidence.nativeFallDestinationMatches) then
    keep "vehicle_exit_native_fall_spline_replaced"
  else if !evidence.currentSplineFinalized || !evidence.splineInitialized then
    keep "vehicle_exit_native_fall_motion_unsettled"
  else if !evidence.motionSlotsSettled then keep "vehicle_exit_native_fall_slots_active"
  else if !evidence.nativeFloorValid then keep "vehicle_exit_native_fall_floor_unavailable"
  else if !episode.fall.attempted then
    if evidence.nativeFloorGap ≤ nativePathEndpointVerticalTolerance then
      keep "vehicle_exit_native_fall_no_material_gap"
    else ⟨.startNativeFall, false, "vehicle_exit_native_fall_required"⟩
  else if !evidence.nativeFallEndpointMatches
      || decide (evidence.nativeFloorGap.abs > nativePathEndpointVerticalTolerance) then
    keep "vehicle_exit_native_fall_not_on_floor"
  else ⟨.clearStaleLandingFlag, false, "vehicle_exit_native_fall_reconciled"⟩

/-- The branch of `Resolve` for a ground POINT: the bound receipt has to prove the landing. -/
def resolveGroundReceipt : ReconciliationResult :=
  if !evidence.currentSplineFinalized || evidence.nativeFalling then
    keep "vehicle_exit_landing_native_motion_unsettled"
  else if !evidence.motionSlotsSettled then keep "vehicle_exit_landing_motion_slots_active"
  else if episode.boundGroundingReceiptId == 0 then
    keep "vehicle_exit_landing_ground_receipt_pending"
  else if !evidence.receiptAvailable then
    keep "vehicle_exit_landing_ground_receipt_unavailable" true
  else if evidence.receiptId != episode.boundGroundingReceiptId
      || evidence.receiptBotGuid != episode.exitBotGuid
      || evidence.receiptMapId != episode.exitMapId
      || evidence.receiptInstanceId != episode.exitInstanceId
      || decide (evidence.receiptArmedAtMs < episode.exitObservedAtMs)
      || evidence.receiptArmedAtMs != episode.boundGroundingReceiptArmedAtMs then
    ⟨.closeEpisode, false, "vehicle_exit_landing_receipt_identity_changed"⟩
  else if evidence.receiptScopeAvailable != episode.exitScopeAvailable
      || (episode.exitScopeAvailable
        && !sameEpisodeScope evidence.receiptScope episode.exitScope) then
    ⟨.closeEpisode, false, "vehicle_exit_landing_receipt_scope_changed"⟩
  else if evidence.receiptSuperseded then
    keep "vehicle_exit_landing_ground_receipt_not_usable" true
  -- receipt sampling is throttled: settled motion may precede the terminal sample
  else if !evidence.receiptTerminal then
    keep "vehicle_exit_landing_ground_receipt_awaiting_terminal"
  else if evidence.receiptTerminalOutcome != "selected_endpoint_reached" then
    keep "vehicle_exit_landing_ground_receipt_not_usable" true
  else if !evidence.terminalSampleAvailable || !evidence.terminalActorAlive
      || !evidence.terminalActorInWorld || !evidence.terminalEndpointReached
      || !evidence.terminalFloorValid || !evidence.terminalPlatformCompatible then
    keep "vehicle_exit_landing_ground_proof_incomplete" true
  else if !evidence.currentEndpointMatches then
    keep "vehicle_exit_landing_current_endpoint_mismatch" true
  else ⟨.clearStaleLandingFlag, false, "vehicle_exit_landing_ground_receipt_reconciled"⟩

/-- `Resolve`. -/
def resolve : ReconciliationResult :=
  if !episode.vehicleObserved || !episode.exitPending then
    ⟨.noEpisode, false, "no_vehicle_exit_episode"⟩
  else if evidence.botGuid != episode.exitBotGuid || evidence.mapId != episode.exitMapId
      || evidence.instanceId != episode.exitInstanceId
      || evidence.currentScopeAvailable != episode.exitScopeAvailable
      || (episode.exitScopeAvailable
        && !sameEpisodeScope evidence.currentScope episode.exitScope) then
    ⟨.closeEpisode, false, "vehicle_exit_landing_scope_changed"⟩
  else if !evidence.fallingFlagsPresent then
    ⟨.closeEpisode, false, "vehicle_exit_landing_flags_already_clear"⟩
  else if !evidence.actorInWorld || !evidence.actorAlive then
    keep "vehicle_exit_landing_actor_unavailable"
  else if evidence.hasVehicle || evidence.hasTransport then
    keep "vehicle_exit_landing_vehicle_or_transport_present"
  else if evidence.gravityDisabled || evidence.nativeFlight then
    keep "vehicle_exit_landing_aerial_state"
  else if evidence.controlledState then keep "vehicle_exit_landing_controlled_state"
  else if evidence.nativeFallObservation && episode.boundGroundingReceiptId == 0
      && episode.submittedGroundReceiptId == 0 then
    resolveNativeFall episode evidence
  else resolveGroundReceipt episode evidence

/-- What `StartVehicleExitNativeFall` observes of the fall it launched: the spline and its
finite destination, when the native launch took effect at once. -/
structure LaunchedFall where
  splineId : UInt32
  destinationX : Float32
  destinationY : Float32
  destinationZ : Float32

/-- `StartVehicleExitNativeFall` for a present bot: the admission is checked again, then the
attempt is recorded whether or not a launch is observed. -/
def startVehicleExitNativeFall
    (observedAtMs : UInt64) (launched : Option LaunchedFall) : Episode × ReconciliationResult :=
  if (resolve episode evidence).decision ≠ .startNativeFall then
    (episode, keep "vehicle_exit_native_fall_not_admitted")
  else
    let fall : NativeFall := { episode.fall with attempted := true }
    let fall : NativeFall :=
      match launched with
      | some launch =>
        { fall with
          splineId := launch.splineId
          submittedAtMs := observedAtMs
          destinationX := launch.destinationX
          destinationY := launch.destinationY
          destinationZ := launch.destinationZ }
      | none => fall
    ({ episode with fall := fall },
      keep (if fall.splineId != 0 then "vehicle_exit_native_fall_launched"
        else "vehicle_exit_native_fall_launch_unobserved"))

/-- `CloseEpisode`. -/
def closeEpisode : Episode :=
  resetSubmittedReceipt <| resetBoundReceipt
    { episode with
      exitPending := false
      exitObservedAtMs := 0
      exitBotGuid := 0
      exitMapId := 0
      exitInstanceId := 0
      exitScopeAvailable := false
      exitScope := {}
      fall := {} }

/-- The calls an episode receives from its owner: the four operations of the header, the
native-fall launch, and the two resets the owner makes directly. -/
inductive Call where
  | observeVehicleTransition (observation : VehicleTransitionObservation)
  | rememberGroundPointSubmission (submission : GroundPointSubmission)
  | bindSubmittedGroundReceipt (progress : Progress)
  | startVehicleExitNativeFall (evidence : LandingEvidence) (observedAtMs : UInt64)
      (launched : Option LaunchedFall)
  | resetBoundReceipt
  | resetSubmittedReceipt
  | closeEpisode

/-- The episode after one call. -/
def step : Call → Episode
  | .observeVehicleTransition observation => observeVehicleTransition episode observation
  | .rememberGroundPointSubmission submission =>
    (rememberGroundPointSubmission episode submission).1
  | .bindSubmittedGroundReceipt progress => (bindSubmittedGroundReceipt episode progress).1
  | .startVehicleExitNativeFall evidence observedAtMs launched =>
    (startVehicleExitNativeFall episode evidence observedAtMs launched).1
  | .resetBoundReceipt => resetBoundReceipt episode
  | .resetSubmittedReceipt => resetSubmittedReceipt episode
  | .closeEpisode => closeEpisode episode

end TrinityCore.Bots.VehicleExitLanding
