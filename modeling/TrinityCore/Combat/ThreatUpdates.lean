import Mathlib.Data.List.Dedup
import TrinityCore.Combat.CombatManager

/-!
# Changes of sort keys

The rest of `ThreatReference` and `ThreatManager` that changes what a threat list is sorted by:
scaling, taunts, suppression and temporary modifiers, each with its heap notification.
-/

namespace TrinityCore.Combat

variable {Heap : Type}

namespace World

section

variable (ops : HeapOps Heap)

variable (env : Surroundings)

variable (w : World Heap)

/-- `ThreatReference::UpdateTauntState`. -/
def updateTauntState (id : RefId) (state : UInt32) : World Heap :=
  let ref := w.threatRef id
  let state :=
    if state < tauntStateTaunt ∧ env.isDetaunting ref.owner ref.victim then tauntStateDetaunt
    else state
  if state = ref.taunted then w
  else
    let old := ref.taunted
    let w := w.modifyThreatRef id fun ref => { ref with taunted := state }
    if state < old then w.heapNotifyDecreased ops id else w.heapNotifyIncreased ops id

/-- One round of `EvaluateSuppressed`. -/
def evaluateSuppressedRef (canExpire : Bool) (w : World Heap) (id : RefId) : World Heap :=
  let ref := w.threatRef id
  let shouldBeSuppressed := env.shouldBeSuppressed ref
  if ref.isOnline ∧ shouldBeSuppressed then
    (w.modifyThreatRef id fun ref => { ref with online := .suppressed }).heapNotifyDecreased ops id
  else if canExpire ∧ ref.online = .suppressed ∧ ¬ shouldBeSuppressed then
    (w.modifyThreatRef id fun ref => { ref with online := .online }).heapNotifyIncreased ops id
  else w

/-- `EvaluateSuppressed`. -/
def evaluateSuppressed (who : ObjectGuid) (canExpire : Bool) : World Heap :=
  let entries := entriesOf env who .threatenedByMe (w.units who).threatenedByMe
  entries.foldl (fun w entry => w.evaluateSuppressedRef ops env canExpire entry.2) w

/-- `ThreatManager::ScaleThreat`. -/
def scaleThreat (owner target : ObjectGuid) (factor : Float32) : World Heap :=
  match (w.units owner).myThreatListEntries[target]? with
  | none => w
  | some id => w.refScaleThreat ops id (stdMax factor 0)

/-- The taunt state `TauntUpdate` gives the victim: the last taunt effect counts, and only those
cast by the victim. -/
def tauntStateOf (casters : List ObjectGuid) (victim : ObjectGuid) : UInt32 :=
  -- priorities count from one
  match (casters.zipIdx 1).findRev? fun effect => effect.1 = victim with
  | none => tauntStateNone
  | some (_, priority) =>
    tauntStateTaunt + UInt32.ofNat casters.dedup.length - UInt32.ofNat priority

/-- `TauntUpdate`. -/
def tauntUpdate (owner : ObjectGuid) : World Heap :=
  let casters := env.tauntEffects owner
  let entries := entriesOf env owner .myThreatListEntries (w.units owner).myThreatListEntries
  let w := entries.foldl
    (fun w entry => w.updateTauntState ops env entry.2 (tauntStateOf casters entry.1)) w
  w.evaluateSuppressed ops env owner true

/-- `ResetAllThreat`. -/
def resetAllThreat (owner : ObjectGuid) : World Heap :=
  let entries := entriesOf env owner .myThreatListEntries (w.units owner).myThreatListEntries
  entries.foldl (fun w entry => w.refScaleThreat ops entry.2 0) w

/-- The sum of the total threat auras on a unit. -/
def totalThreat (who : ObjectGuid) : Int32 :=
  (env.totalThreatAmounts who).foldl (fun mod amount => mod + amount) 0

/-- One round of the loop of `UpdateMyTempModifiers`. -/
def setTempModifier (mod : Int32) (isIncrease : Bool) (w : World Heap) (id : RefId) :
    World Heap :=
  let w := w.modifyThreatRef id fun ref => { ref with tempModifier := mod }
  if isIncrease then w.heapNotifyIncreased ops id else w.heapNotifyDecreased ops id

/-- `UpdateMyTempModifiers`. -/
def updateMyTempModifiers (who : ObjectGuid) : World Heap :=
  let mod := totalThreat env who
  match entriesOf env who .threatenedByMe (w.units who).threatenedByMe with
  | [] => w
  | first :: rest =>
    let isIncrease := decide ((w.threatRef first.2).tempModifier < mod)
    (first :: rest).foldl (fun w entry => w.setTempModifier ops mod isIncrease entry.2) w

/-- `FixateTarget`. -/
def fixateTarget (owner : ObjectGuid) (target : Option ObjectGuid) : World Heap :=
  w.modifyUnit owner fun unit =>
    { unit with fixateRef := target.bind fun guid => unit.myThreatListEntries[guid]? }

end

end World

/-- The calls that change a sort key, besides those that edit references. -/
inductive ThreatCall where
  | combat (call : Call)
  | addThreatRef (owner target : ObjectGuid) (amount : Float32)
  | scaleThreatRef (owner target : ObjectGuid) (factor : Float32)
  | updateOffline (owner target : ObjectGuid)
  | updateTauntState (owner target : ObjectGuid) (state : UInt32)
  | evaluateSuppressed (who : ObjectGuid) (canExpire : Bool)
  | scaleThreat (owner target : ObjectGuid) (factor : Float32)
  | tauntUpdate (owner : ObjectGuid)
  | resetAllThreat (owner : ObjectGuid)
  | updateMyTempModifiers (who : ObjectGuid)
  | updateVictim (owner : ObjectGuid)
  | fixateTarget (owner : ObjectGuid) (target : Option ObjectGuid)

/-- What one call does in its surroundings. A call on a reference looks it up first. -/
def threatStep (ops : HeapOps Heap) (w : World Heap) : Surroundings × ThreatCall → World Heap
  | (env, .combat call) => step ops w (env, call)
  | (_, .addThreatRef owner target amount) =>
    match (w.units owner).myThreatListEntries[target]? with
    | none => w
    | some id => w.refAddThreat ops id amount
  | (_, .scaleThreatRef owner target factor) =>
    match (w.units owner).myThreatListEntries[target]? with
    | none => w
    | some id => w.refScaleThreat ops id factor
  | (env, .updateOffline owner target) =>
    match (w.units owner).myThreatListEntries[target]? with
    | none => w
    | some id => w.updateOffline ops env id
  | (env, .updateTauntState owner target state) =>
    match (w.units owner).myThreatListEntries[target]? with
    | none => w
    | some id => w.updateTauntState ops env id state
  | (env, .evaluateSuppressed who canExpire) => w.evaluateSuppressed ops env who canExpire
  | (_, .scaleThreat owner target factor) => w.scaleThreat ops owner target factor
  | (env, .tauntUpdate owner) => w.tauntUpdate ops env owner
  | (env, .resetAllThreat owner) => w.resetAllThreat ops env owner
  | (env, .updateMyTempModifiers who) => w.updateMyTempModifiers ops env who
  | (env, .updateVictim owner) => w.updateVictim ops env owner
  | (_, .fixateTarget owner target) => w.fixateTarget owner target

end TrinityCore.Combat
