import Mathlib.Init

/-!
# Movement arbitration

The value types of `BotMovementArbiter.h` that other components carry around.
-/

namespace TrinityCore.Bots.MovementArbitration

/-- `Owner`. -/
inductive Owner where
  | none
  | route
  | formation
  | combatRange
  | support
  | mechanic
  | hazard
  | recovery
  deriving DecidableEq, Repr

/-- `Scope`. -/
structure Scope where
  attemptId : UInt64 := 0
  wipeGeneration : UInt32 := 0
  routeGeneration : UInt64 := 0
  mapId : UInt32 := 0xFFFFFFFF
  instanceId : UInt32 := 0
  deriving DecidableEq, Repr

/-- `SameScope`. -/
def sameScope (left right : Scope) : Bool :=
  left.attemptId == right.attemptId
    && left.wipeGeneration == right.wipeGeneration
    && left.routeGeneration == right.routeGeneration
    && left.mapId == right.mapId
    && left.instanceId == right.instanceId

/-- `Lease`, without the priority. -/
structure Lease where
  movementOwner : Owner := .none
  expiresAtMs : UInt64 := 0
  movementScope : Scope := {}
  x : Float32 := 0
  y : Float32 := 0
  z : Float32 := 0
  dynamicTargetGuid : UInt64 := 0

end TrinityCore.Bots.MovementArbitration
