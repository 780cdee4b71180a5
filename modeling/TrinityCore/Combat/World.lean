import Std.Data.ExtTreeMap.Lemmas
import TrinityCore.Entities.ObjectGuid
import TrinityCore.Lib.Float32Order

/-!
# Combat and threat references

The data of `CombatManager.h` and `ThreatManager.h`: dynamically allocated reference objects,
and the maps of every unit that point to them. A pointer is the address of an object in one of
the two stores. What the managers read of the units themselves is a parameter of every
operation.
-/

namespace TrinityCore.Combat

/-- The address of a reference object. -/
abbrev RefId := Nat

/-- `PVP_COMBAT_TIMEOUT`. -/
def pvpCombatTimeout : UInt32 := 5 * 1000

/-- `CombatReference`, with the timer of `PvPCombatReference`. -/
structure CombatReference where
  first : ObjectGuid
  second : ObjectGuid
  isPvP : Bool := false
  suppressFirst : Bool := false
  suppressSecond : Bool := false
  combatTimer : UInt32 := pvpCombatTimeout
  deriving DecidableEq, Repr, Inhabited

namespace CombatReference

variable (ref : CombatReference)

/-- `GetOther`. -/
def getOther (me : ObjectGuid) : ObjectGuid :=
  if ref.first = me then ref.second else ref.first

/-- `IsSuppressedFor`. -/
def isSuppressedFor (who : ObjectGuid) : Bool :=
  if who = ref.first then ref.suppressFirst else ref.suppressSecond

theorem isSuppressedFor_first {ref : CombatReference} {who : ObjectGuid} (h : who = ref.first) :
    ref.isSuppressedFor who = ref.suppressFirst := if_pos h

theorem isSuppressedFor_second {ref : CombatReference} {who : ObjectGuid} (h : who ≠ ref.first) :
    ref.isSuppressedFor who = ref.suppressSecond := if_neg h

/-- `Suppress`. -/
def suppress (who : ObjectGuid) : CombatReference :=
  if who = ref.first then { ref with suppressFirst := true }
  else { ref with suppressSecond := true }

/-- No longer suppressed for the first unit. -/
def liftFirst : CombatReference := { ref with suppressFirst := false }

/-- No longer suppressed for the second unit. -/
def liftSecond : CombatReference := { ref with suppressSecond := false }

/-- `RefreshTimer`. -/
def refreshTimer : CombatReference :=
  { ref with combatTimer := pvpCombatTimeout }

end CombatReference

/-- `OnlineState`. -/
inductive OnlineState where
  | offline
  | suppressed
  | online
  deriving DecidableEq, Repr, Inhabited

/-- The number behind an online state. -/
def OnlineState.toNat : OnlineState → Nat
  | .offline => 0
  | .suppressed => 1
  | .online => 2

/-- `TAUNT_STATE_DETAUNT`. -/
def tauntStateDetaunt : UInt32 := 0

/-- `TAUNT_STATE_NONE`. -/
def tauntStateNone : UInt32 := 1

/-- `TAUNT_STATE_TAUNT`. -/
def tauntStateTaunt : UInt32 := 2

/-- `ThreatReference`. -/
structure ThreatReference where
  owner : ObjectGuid
  victim : ObjectGuid
  online : OnlineState := .offline
  baseAmount : Float32 := 0
  tempModifier : Int32 := 0
  taunted : UInt32 := tauntStateNone
  deriving Inhabited

/-- `std::max<float>`. -/
def stdMax (a b : Float32) : Float32 := if a < b then b else a

namespace ThreatReference

variable (ref : ThreatReference)

/-- `GetThreat`. -/
def getThreat : Float32 :=
  stdMax (ref.baseAmount + .ofInt32 ref.tempModifier) 0

/-- `IsOnline`. -/
def isOnline : Bool := ref.online == .online

/-- `IsAvailable`. -/
def isAvailable : Bool := ref.online != .offline

/-- `IsOffline`. -/
def isOffline : Bool := ref.online == .offline

/-- `IsTaunting`. -/
def isTaunting : Bool := decide (ref.taunted ≥ tauntStateTaunt)

end ThreatReference

/-- `CompareReferencesLT`. -/
def compareReferencesLT (a b : ThreatReference) (aWeight : Float32) : Bool :=
  if a.online ≠ b.online then decide (a.online.toNat < b.online.toNat)
  else if a.taunted ≠ b.taunted then decide (a.taunted < b.taunted)
  else decide (a.getThreat * aWeight < b.getThreat)

/-- The operations of the heap a threat list is sorted by. Each reads what its handles point
to; `ordered` is the ordered iteration, highest first. -/
structure HeapOps (Heap : Type) where
  empty : Heap
  push : (RefId → ThreatReference) → RefId → Heap → Heap
  erase : (RefId → ThreatReference) → RefId → Heap → Heap
  increase : (RefId → ThreatReference) → RefId → Heap → Heap
  decrease : (RefId → ThreatReference) → RefId → Heap → Heap
  ordered : (RefId → ThreatReference) → Heap → List RefId

/-- The `CombatManager` and the `ThreatManager` of one unit, with its in-combat flag. -/
structure UnitState (Heap : Type) where
  inCombat : Bool := false
  pveRefs : Std.ExtTreeMap ObjectGuid RefId := ∅
  pvpRefs : Std.ExtTreeMap ObjectGuid RefId := ∅
  ownerCanHaveThreatList : Bool := false
  myThreatListEntries : Std.ExtTreeMap ObjectGuid RefId := ∅
  sortedThreatList : Heap
  currentVictimRef : Option RefId := none
  fixateRef : Option RefId := none
  threatenedByMe : Std.ExtTreeMap ObjectGuid RefId := ∅

/-- The combat references of one kind. -/
def UnitState.refs {Heap : Type} (unit : UnitState Heap) (pvp : Bool) :
    Std.ExtTreeMap ObjectGuid RefId :=
  if pvp then unit.pvpRefs else unit.pveRefs

/-- All units and all reference objects. -/
structure World (Heap : Type) where
  units : ObjectGuid → UnitState Heap
  combatRefs : Std.ExtTreeMap RefId CombatReference := ∅
  threatRefs : Std.ExtTreeMap RefId ThreatReference := ∅
  nextRef : RefId := 0

namespace World

variable {Heap : Type}

/-- Follow a pointer to a combat reference. -/
def combatRef (w : World Heap) (id : RefId) : CombatReference := w.combatRefs.getD id default

/-- Follow a pointer to a threat reference. -/
def threatRef (w : World Heap) (id : RefId) : ThreatReference := w.threatRefs.getD id default

/-- Change one unit. -/
def modifyUnit (w : World Heap) (who : ObjectGuid) (f : UnitState Heap → UnitState Heap) :
    World Heap :=
  { w with units := Function.update w.units who (f (w.units who)) }

theorem units_modifyUnit (w : World Heap) (who other : ObjectGuid)
    (f : UnitState Heap → UnitState Heap) :
    (w.modifyUnit who f).units other = if other = who then f (w.units who) else w.units other :=
  Function.update_apply _ _ _ _

/-- Change a combat reference in place. -/
def modifyCombatRef (w : World Heap) (id : RefId) (f : CombatReference → CombatReference) :
    World Heap :=
  { w with combatRefs := w.combatRefs.modify id f }

/-- Change a threat reference in place. -/
def modifyThreatRef (w : World Heap) (id : RefId) (f : ThreatReference → ThreatReference) :
    World Heap :=
  { w with threatRefs := w.threatRefs.modify id f }

end World

/-- The hash maps of a unit that operations iterate over. -/
inductive MapName where
  | pveRefs
  | pvpRefs
  | myThreatListEntries
  | threatenedByMe
  deriving DecidableEq, Repr

/-- What an operation finds in the world besides the managers. -/
structure Surroundings where
  isInWorld : ObjectGuid → Bool := fun _ => true
  isAlive : ObjectGuid → Bool := fun _ => true
  getMap : ObjectGuid → UInt32 := fun _ => 0
  isInPhase : ObjectGuid → ObjectGuid → Bool := fun _ _ => true
  isEvading : ObjectGuid → Bool := fun _ => false
  isInFlight : ObjectGuid → Bool := fun _ => false
  isFriendlyTo : ObjectGuid → ObjectGuid → Bool := fun _ _ => false
  /-- The player controlling the unit, if any, is a game master. -/
  isGameMaster : ObjectGuid → Bool := fun _ => false
  isControlledByPlayer : ObjectGuid → Bool := fun _ => false
  /-- `IsWithinDistInMap` for the range at hand. -/
  isWithinDistInMap : ObjectGuid → ObjectGuid → Bool := fun _ _ => true
  isWithinMeleeRange : ObjectGuid → ObjectGuid → Bool := fun _ _ => true
  isEngaged : ObjectGuid → Bool := fun _ => false
  /-- `ObjectAccessor::GetUnit` finds the second unit from the first. -/
  getUnit : ObjectGuid → ObjectGuid → Bool := fun _ _ => true
  /-- `_redirectInfo`: redirection targets and percentages. -/
  redirectInfo : ObjectGuid → List (ObjectGuid × UInt32) := fun _ => []
  /-- `CalculateModifiedThreat` for the spell at hand. -/
  calculateModifiedThreat : Float32 → ObjectGuid → Float32 := fun threat _ => threat
  /-- `ShouldBeOffline` of the reference from owner to victim. -/
  shouldBeOffline : ObjectGuid → ObjectGuid → Bool := fun _ _ => false
  /-- The victim is immune to the owner's damage or under breakable crowd control. -/
  isInopportune : ObjectGuid → ObjectGuid → Bool := fun _ _ => false
  /-- The victim has a detaunt aura cast by the owner. -/
  isDetaunting : ObjectGuid → ObjectGuid → Bool := fun _ _ => false
  /-- The casters of the taunt auras on a unit, in order. -/
  tauntEffects : ObjectGuid → List ObjectGuid := fun _ => []
  /-- The amounts of the total threat auras on a unit. -/
  totalThreatAmounts : ObjectGuid → List Int32 := fun _ => []
  /-- The order in which a hash map of a unit yields its keys. -/
  iterate : ObjectGuid → MapName → List ObjectGuid → List ObjectGuid := fun _ _ keys => keys
  /-- Iterating yields every key once. -/
  iterate_perm : ∀ who name keys, (iterate who name keys).Perm keys := by
    exact fun _ _ keys => List.Perm.refl keys

/-- `CanBeginCombat`. -/
def Surroundings.canBeginCombat (env : Surroundings) (a b : ObjectGuid) : Bool :=
  if a = b then false
  else if !env.isInWorld a || !env.isInWorld b then false
  else if !env.isAlive a || !env.isAlive b then false
  else if env.getMap a ≠ env.getMap b then false
  else if !env.isInPhase a b then false
  else if env.isEvading a || env.isEvading b then false
  else if env.isInFlight a || env.isInFlight b then false
  else if env.isFriendlyTo a b || env.isFriendlyTo b a then false
  else if env.isGameMaster a || env.isGameMaster b then false
  else true

/-- `ShouldBeSuppressed`: a taunting victim never is. -/
def Surroundings.shouldBeSuppressed (env : Surroundings) (ref : ThreatReference) : Bool :=
  !ref.isTaunting && env.isInopportune ref.owner ref.victim

end TrinityCore.Combat
