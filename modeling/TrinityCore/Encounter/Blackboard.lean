import TrinityCore.Entities.ObjectGuid

/-!
# The encounter blackboard

`BotEncounterBlackboard.h`: one observed snapshot of an encounter, as far as the modelled
strategies read it.
-/

namespace TrinityCore.Encounter

/-- `Scope`. -/
structure Scope where
  cohortId : String := ""
  attemptId : UInt64 := 0
  wipeGeneration : UInt32 := 0
  routeGeneration : UInt64 := 0
  nodeId : String := ""
  mapId : UInt32 := 0
  instanceId : UInt32 := 0
  encounterId : String := ""
  serverEpoch : UInt64 := 0
  encounterEpoch : UInt64 := 0
  deriving DecidableEq, Repr

/-- `Scope::Key`; the epochs stay out of it. -/
def Scope.key (scope : Scope) : String :=
  scope.cohortId ++ ":" ++ toString scope.attemptId.toNat
    ++ ":" ++ toString scope.wipeGeneration.toNat
    ++ ":" ++ toString scope.routeGeneration.toNat ++ ":" ++ scope.nodeId
    ++ ":" ++ toString scope.mapId.toNat ++ ":" ++ toString scope.instanceId.toNat
    ++ ":" ++ scope.encounterId

/-- `FactSource`. -/
inductive FactSource where
  | visibleUnitState
  | visibleAura
  | visibleCast
  | combatLogEvent
  | groupState
  | nativeInstanceState
  | routeManifest
  deriving DecidableEq, Repr

/-- `NativeEncounterState`. -/
inductive NativeEncounterState where
  | unknown
  | notStarted
  | inProgress
  | failed
  | done
  deriving DecidableEq, Repr

/-- `NativeEncounterLifecycle`. -/
structure NativeEncounterLifecycle where
  id : String := ""
  bossId : UInt32 := 0
  bossEntry : UInt32 := 0
  bossGuid : ObjectGuid := 0
  state : NativeEncounterState := .unknown
  serverEpoch : UInt64 := 0
  instanceLifecycleEpoch : UInt64 := 0
  attemptEpoch : UInt64 := 0
  encounterEpoch : UInt64 := 0
  authoritative : Bool := false
  deriving DecidableEq, Repr

/-- `ActorKind`. -/
inductive ActorKind where
  | player
  | pet
  | hostile
  | summon
  | interactable
  deriving DecidableEq, Repr

/-- `Vector3`. -/
structure Vector3 where
  x : Float32 := 0
  y : Float32 := 0
  z : Float32 := 0

/-- `MechanicTimerSnapshot`. -/
structure MechanicTimerSnapshot where
  spellId : UInt32 := 0
  remainingMs : UInt32 := 0xFFFFFFFF
  sequenceActive : Bool := false
  source : FactSource := .nativeInstanceState
  deriving DecidableEq, Repr

/-- `ActorSnapshot`; auras by their spell. -/
structure ActorSnapshot where
  guid : ObjectGuid := 0
  entry : UInt32 := 0
  kind : ActorKind := .hostile
  role : String := ""
  classSpec : String := ""
  position : Vector3 := {}
  alive : Bool := false
  interactable : Bool := false
  inCombat : Bool := false
  vehicleGuid : ObjectGuid := 0
  auras : List UInt32 := []
  mechanicTimers : List MechanicTimerSnapshot := []

/-- `ActorSnapshot::FindMechanicTimer`. -/
def ActorSnapshot.findMechanicTimer (actor : ActorSnapshot) (spellId : UInt32) :
    Option MechanicTimerSnapshot := actor.mechanicTimers.find? (·.spellId == spellId)

/-- `AssignmentKind`. -/
inductive AssignmentKind where
  | tank
  | interrupt
  | interaction
  | kite
  | heal
  | platform
  | formation
  deriving DecidableEq, Repr

/-- `AssignmentLease`, as far as plans read it. -/
structure AssignmentLease where
  kind : AssignmentKind := .formation
  slot : String := ""
  assigneeGuid : ObjectGuid := 0
  deriving DecidableEq, Repr

/-- `Blackboard`; of the route only its navigation hints. -/
structure Blackboard where
  currentScope : Scope := {}
  revision : UInt64 := 0
  observedAtMs : UInt64 := 0
  players : List ActorSnapshot := []
  hostiles : List ActorSnapshot := []
  summons : List ActorSnapshot := []
  interactables : List ActorSnapshot := []
  navigationHints : List Vector3 := []
  assignments : List AssignmentLease := []

/-- The three lists of other actors, in the order they are scanned. -/
def Blackboard.actors (board : Blackboard) : List ActorSnapshot :=
  board.hostiles ++ board.summons ++ board.interactables

end TrinityCore.Encounter
