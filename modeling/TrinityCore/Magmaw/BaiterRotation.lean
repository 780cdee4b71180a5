import Mathlib.Algebra.Ring.Nat
import TrinityCore.Encounter.Blackboard
import TrinityCore.Lib.StateMachine

/-!
# The baiter rotation of the Magmaw encounter

`BotMagmawBaiterRotation.h`: which of the two lowest-GUID dps Fire Mages has bait duty, one
parasite wave at a time. Times and revisions keep their width, counters that only grow by
one are natural numbers.
-/

namespace TrinityCore.Magmaw

open Encounter

namespace BaiterRotation

/-- `BossEntry`. -/
def bossEntry : UInt32 := 41570

/-- `PillarEntry`. -/
def pillarEntry : UInt32 := 41843

/-- `ParasiteEntry`. -/
def parasiteEntry : UInt32 := 41806

/-- `ParasiteAltEntry`. -/
def parasiteAltEntry : UInt32 := 42321

/-- `RoomStalkerEntry`. -/
def roomStalkerEntry : UInt32 := 47196

/-- `PincerWarningAura`. -/
def pincerWarningAura : UInt32 := 87949

/-- `MangleTimerSpell`. -/
def mangleTimerSpell : UInt32 := 88253

/-- `NativeMangleRepeatMs`. -/
def nativeMangleRepeatMs : UInt32 := 95000

/-- `HookDutyLeadMs`. -/
def hookDutyLeadMs : UInt32 := 15000

/-- `QuietBoundaryMs`. -/
def quietBoundaryMs : UInt64 := 3000

/-- `HistoryCapacity`. -/
def historyCapacity : Nat := 16

/-- `IsBaitMage`. -/
def isBaitMage (member : ActorSnapshot) : Bool :=
  member.role == "dps" && member.classSpec == "fire_mage"

/-- `IsBaitHunter`. -/
def isBaitHunter (member : ActorSnapshot) : Bool :=
  member.role == "dps"
    && (member.classSpec == "marksmanship_hunter" || member.classSpec == "survival_hunter")

/-- `Roster`. -/
structure Roster where
  firstMage : ObjectGuid := 0
  secondMage : ObjectGuid := 0
  hunter : ObjectGuid := 0
  deriving DecidableEq, Repr

/-- One player of the loop in `ObserveRoster`. -/
def Roster.note (roster : Roster) (member : ActorSnapshot) : Roster :=
  if isBaitMage member then
    if member.guid == roster.firstMage || member.guid == roster.secondMage then roster
    else if roster.firstMage == 0 || decide (member.guid < roster.firstMage) then
      { roster with secondMage := roster.firstMage, firstMage := member.guid }
    else if roster.secondMage == 0 || decide (member.guid < roster.secondMage) then
      { roster with secondMage := member.guid }
    else roster
  else if isBaitHunter member
      && (roster.hunter == 0 || decide (member.guid < roster.hunter)) then
    { roster with hunter := member.guid }
  else roster

/-- `ObserveRoster`. -/
def observeRoster (board : Blackboard) : Roster := board.players.foldl Roster.note {}

/-- `MageAvailable`. -/
def mageAvailable (board : Blackboard) (guid : ObjectGuid) : Bool :=
  board.players.any fun member => member.guid == guid && member.alive && isBaitMage member

/-- `HasAura`. -/
def hasAura (actor : ActorSnapshot) (spellId : UInt32) : Bool := actor.auras.any (· == spellId)

/-- `HasParasiticInfection`. -/
def hasParasiticInfection (actor : ActorSnapshot) : Bool :=
  [78097, 78941, 91913, 94678, 94679].any (hasAura actor)

/-- `HasMangleAura`. -/
def hasMangleAura (actor : ActorSnapshot) : Bool :=
  [89773, 91912, 94616, 94617, 78412].any (hasAura actor)

/-- `MechanicPresent`. -/
def mechanicPresent (board : Blackboard) : Bool :=
  (board.actors.any fun actor => actor.alive
      && (actor.entry == parasiteEntry || actor.entry == parasiteAltEntry
        || actor.entry == pillarEntry))
    || board.players.any fun member => member.alive && hasParasiticInfection member

/-- `MangleImminent`. -/
def mangleImminent (boss : ActorSnapshot) : Bool :=
  match boss.findMechanicTimer mangleTimerSpell with
  | none => false
  | some timer =>
    if !boss.inCombat || timer.source != .nativeInstanceState then false
    else
      let dueInMs :=
        if timer.sequenceActive || decide (timer.remainingMs > nativeMangleRepeatMs) then 0
        else timer.remainingMs
      decide (dueInMs ≤ hookDutyLeadMs)

/-- What one player says about hook duty. -/
def playerDeferral (member : ActorSnapshot) : Option String :=
  if !member.alive then none
  else if member.vehicleGuid != 0 then some "vehicle_seat"
  else if hasMangleAura member then some "mangle_active"
  else none

/-- What one other actor says about hook duty. -/
def actorDeferral (actor : ActorSnapshot) : Option String :=
  if !actor.alive then none
  else if actor.entry == bossEntry && actor.interactable then some "pincer_window"
  else if actor.entry == bossEntry && mangleImminent actor then some "mangle_imminent"
  else if actor.entry == roomStalkerEntry && hasAura actor pincerWarningAura then
    some "pincer_warning"
  else none

/-- `HookDutyDeferral`: the first reason found, players first. -/
def hookDutyDeferral (board : Blackboard) : Option String :=
  (board.players.findSome? playerDeferral).or (board.actors.findSome? actorDeferral)

/-- `Reason`. -/
inductive Reason where
  | initial
  | alternate
  | alternateUnavailable
  | singleMage
  | activeMageUnavailable
  | hookDutyKept
  deriving DecidableEq, Repr

/-- `Assignment`. -/
structure Assignment where
  wave : Nat := 0
  mage : ObjectGuid := 0
  assignedAtMs : UInt64 := 0
  revision : UInt64 := 0
  why : Reason := .initial
  deriving DecidableEq, Repr

end BaiterRotation

open BaiterRotation in
/-- `MagmawBaiterRotation`. -/
structure BaiterRotation where
  scopeKey : String := ""
  observed : Bool := false
  lastRevision : UInt64 := 0
  lastObservedAtMs : UInt64 := 0
  primaryMage : ObjectGuid := 0
  alternateMage : ObjectGuid := 0
  hunter : ObjectGuid := 0
  activeMage : ObjectGuid := 0
  wave : Nat := 1
  completedWaves : Nat := 0
  waveObserved : Bool := false
  quietTiming : Bool := false
  quietSinceMs : UInt64 := 0
  switchPending : Bool := false
  pendingDeferred : Bool := false
  deferrals : Nat := 0
  lastDeferral : String := ""
  history : List Assignment := []
  deriving DecidableEq, Repr

namespace BaiterRotation

/-- `Reset`. -/
def reset (scopeKey : String) : BaiterRotation := { scopeKey := scopeKey }

variable (r : BaiterRotation)

/-- `OtherMage`. -/
def otherMage (mage : ObjectGuid) : ObjectGuid :=
  if mage == r.primaryMage then r.alternateMage
  else if mage == r.alternateMage then r.primaryMage
  else 0

/-- The alternate `LatchRoster` fills in: the roster's first mage that is not the primary. -/
def alternateOf (roster : Roster) : ObjectGuid :=
  if roster.firstMage != r.primaryMage then roster.firstMage else roster.secondMage

/-- `LatchRoster`, the mages. -/
def latchMages (roster : Roster) : BaiterRotation :=
  if r.primaryMage == 0 then
    { r with primaryMage := roster.firstMage, alternateMage := roster.secondMage }
  else if r.alternateMage == 0 then { r with alternateMage := r.alternateOf roster }
  else r

/-- `LatchRoster`, the Hunter. -/
def latchHunter (roster : Roster) : BaiterRotation :=
  if r.hunter == 0 then { r with hunter := roster.hunter } else r

variable (board : Blackboard)

/-- `LatchRoster`. -/
def latchRoster : BaiterRotation :=
  let roster := observeRoster board
  (r.latchMages roster).latchHunter roster

/-- `Record`. -/
def record (reason : Reason) : BaiterRotation :=
  let history := if r.history.length ≥ historyCapacity then r.history.tail else r.history
  { r with history := history ++ [⟨r.wave, r.activeMage, board.observedAtMs, board.revision,
      reason⟩] }

/-- The branch of `Observe` on a board with a mechanic: the wave is live, and a switch still
pending is kept back. -/
def sightMechanic : BaiterRotation :=
  let r := { r with quietTiming := false }
  let r := if r.switchPending then { r with switchPending := false }.record board .hookDutyKept
    else r
  { r with waveObserved := true }

/-- `Observe` on a quiet board of a live wave: time the quiet. -/
def timeQuiet : BaiterRotation :=
  if r.quietTiming then r
  else { r with quietTiming := true, quietSinceMs := board.observedAtMs }

/-- `Observe` once the quiet has lasted: the wave is complete and a switch is pending. -/
def completeWave : BaiterRotation :=
  { r with
    waveObserved := false
    quietTiming := false
    completedWaves := r.completedWaves + 1
    wave := r.wave + 1
    switchPending := true
    pendingDeferred := false }

/-- The end of `Observe`, between waves: carry out or defer a pending switch, or hand over
from a dead or absent baiter. -/
def assignBetweenWaves : BaiterRotation :=
  if r.switchPending then
    match hookDutyDeferral board with
    | some deferral =>
      { r with
        deferrals := if r.pendingDeferred then r.deferrals else r.deferrals + 1
        pendingDeferred := true
        lastDeferral := deferral }
    | none =>
      let r := { r with switchPending := false }
      let other := r.otherMage r.activeMage
      if other == 0 then r.record board .singleMage
      else if !mageAvailable board other then r.record board .alternateUnavailable
      else { r with activeMage := other }.record board .alternate
  else if (hookDutyDeferral board).isNone && !mageAvailable board r.activeMage then
    let other := r.otherMage r.activeMage
    if other != 0 && mageAvailable board other then
      { r with activeMage := other }.record board .activeMageUnavailable
    else r
  else r

/-- `Observe` after the roster is latched and a mage is active. -/
def advance : BaiterRotation :=
  if mechanicPresent board then r.sightMechanic board
  else if r.waveObserved then
    let r := r.timeQuiet board
    if board.observedAtMs < r.quietSinceMs + quietBoundaryMs then r
    else r.completeWave.assignBetweenWaves board
  else r.assignBetweenWaves board

/-- The first part of `Observe`: the board is noted and its roster latched. -/
def noteBoard : BaiterRotation :=
  { r with
    observed := true
    lastRevision := board.revision
    lastObservedAtMs := board.observedAtMs }.latchRoster board

/-- `Observe`: its answer says whether the board was newer than the last one. -/
def observe : BaiterRotation × Bool :=
  if r.observed && decide (board.revision ≤ r.lastRevision) then (r, false)
  else
    let r := r.noteBoard board
    if r.activeMage == 0 then
      if r.primaryMage == 0 then (r, true)
      else (({ r with activeMage := r.primaryMage }.record board .initial).advance board, true)
    else (r.advance board, true)

/-- The rotation after one more board. -/
def step : BaiterRotation := (r.observe board).1

end BaiterRotation

end TrinityCore.Magmaw
