import TrinityCore.Combat.ThreatList

/-!
# The combat manager and the creation of threat

`CombatManager.cpp`, and the operations of `ThreatManager.cpp` that put units in combat. AI
calls are left out, and so is what entering and leaving combat does besides setting the flag.
-/

namespace TrinityCore.Combat

variable {Heap : Type}

namespace World

/-! ### Combat state -/

variable (w : World Heap)

/-- Some reference of the map is not suppressed for its owner. -/
def anyActive (owner : ObjectGuid) (refs : Std.ExtTreeMap ObjectGuid RefId) : Bool :=
  refs.toList.any fun entry => !(w.combatRef entry.2).isSuppressedFor owner

/-- `HasPvECombat`. -/
def hasPvECombat (owner : ObjectGuid) : Bool :=
  w.anyActive owner (w.units owner).pveRefs

/-- `HasPvPCombat`. -/
def hasPvPCombat (owner : ObjectGuid) : Bool :=
  w.anyActive owner (w.units owner).pvpRefs

/-- `HasCombat`. -/
def hasCombat (owner : ObjectGuid) : Bool :=
  w.hasPvECombat owner || w.hasPvPCombat owner

/-- `IsInCombatWith`. -/
def isInCombatWith (owner who : ObjectGuid) : Bool :=
  (w.units owner).pveRefs.contains who || (w.units owner).pvpRefs.contains who

/-- `UpdateOwnerCombatState`. -/
def updateOwnerCombatState (owner : ObjectGuid) : World Heap :=
  let combatState := w.hasCombat owner
  if combatState = (w.units owner).inCombat then w
  else w.modifyUnit owner fun unit => { unit with inCombat := combatState }

/-! ### References -/

/-- `PutReference`. -/
def putReference (owner guid : ObjectGuid) (isPvP : Bool) (id : RefId) : World Heap :=
  w.modifyUnit owner fun unit =>
    if isPvP then { unit with pvpRefs := unit.pvpRefs.insert guid id }
    else { unit with pveRefs := unit.pveRefs.insert guid id }

/-- `PurgeReference`. -/
def purgeReference (owner guid : ObjectGuid) (pvp : Bool) : World Heap :=
  w.modifyUnit owner fun unit =>
    if pvp then { unit with pvpRefs := unit.pvpRefs.erase guid }
    else { unit with pveRefs := unit.pveRefs.erase guid }

/-- Allocate a combat reference. -/
def newCombatRef (ref : CombatReference) : World Heap :=
  { w with combatRefs := w.combatRefs.insert w.nextRef ref, nextRef := w.nextRef + 1 }

/-- Free a combat reference. -/
def deleteCombatRef (id : RefId) : World Heap :=
  { w with combatRefs := w.combatRefs.erase id }

/-- One half of `Refresh`: lift the suppression for `who` when it is set. -/
def unsuppress (id : RefId) (suppressed : Bool) (who : ObjectGuid)
    (lift : CombatReference → CombatReference) : World Heap :=
  if suppressed then (w.modifyCombatRef id lift).updateOwnerCombatState who else w

/-- `Refresh`. -/
def refresh (id : RefId) : World Heap :=
  let ref := w.combatRef id
  let w := w.unsuppress id ref.suppressFirst ref.first CombatReference.liftFirst
  w.unsuppress id ref.suppressSecond ref.second CombatReference.liftSecond

/-- `SuppressFor`. -/
def suppressFor (id : RefId) (who : ObjectGuid) : World Heap :=
  (w.modifyCombatRef id fun ref => ref.suppress who).updateOwnerCombatState who

/-- `SetInCombatWith`, with the combat state it returns. -/
def setInCombatWith (env : Surroundings) (w : World Heap) (owner who : ObjectGuid)
    (addSecondUnitSuppressed : Bool) : World Heap × Bool :=
  match (w.units owner).pvpRefs[who]? with
  | some id => ((w.modifyCombatRef id CombatReference.refreshTimer).refresh id, true)
  | none =>
    match (w.units owner).pveRefs[who]? with
    | some id => (w.refresh id, true)
    | none =>
      if !env.canBeginCombat owner who then (w, false)
      else
        let isPvP := env.isControlledByPlayer owner && env.isControlledByPlayer who
        let ref : CombatReference := { first := owner, second := who, isPvP := isPvP }
        let id := w.nextRef
        let w := w.newCombatRef (if addSecondUnitSuppressed then ref.suppress who else ref)
        let w := w.putReference owner who isPvP id
        let w := w.putReference who owner isPvP id
        let w := w.updateOwnerCombatState owner
        let w := w.updateOwnerCombatState who
        (w, w.isInCombatWith owner who)

/-- `SuppressPvPCombat`. -/
def suppressPvPCombat (env : Surroundings) (w : World Heap) (owner : ObjectGuid)
    (unitFilter : UnitFilter) : World Heap :=
  let entries := entriesOf env owner .pvpRefs (w.units owner).pvpRefs
  let w := entries.foldl
    (fun w entry =>
      if accepts unitFilter ((w.combatRef entry.2).getOther owner) then
        w.modifyCombatRef entry.2 fun ref => ref.suppress owner
      else w) w
  w.updateOwnerCombatState owner

variable (ops : HeapOps Heap)

/-- `EndCombat`; a pointer to nothing does nothing. -/
def endCombat (env : Surroundings) (w : World Heap) (id : RefId) : World Heap :=
  match w.combatRefs[id]? with
  | none => w
  | some ref =>
    let w := w.clearThreat ops env ref.first ref.second
    let w := w.clearThreat ops env ref.second ref.first
    let w := w.purgeReference ref.first ref.second ref.isPvP
    let w := w.purgeReference ref.second ref.first ref.isPvP
    let w := w.updateOwnerCombatState ref.first
    let w := w.updateOwnerCombatState ref.second
    w.deleteCombatRef id

/-- A round of the loops that end combat while they iterate: erase the entry from the
iterated map, then end combat. -/
def eraseAndEndCombat (env : Surroundings) (w : World Heap) (owner : ObjectGuid) (pvp : Bool)
    (entry : ObjectGuid × RefId) : World Heap :=
  (w.purgeReference owner entry.1 pvp).endCombat ops env entry.2

/-- `Update`. -/
def update (env : Surroundings) (w : World Heap) (owner : ObjectGuid) (tdiff : UInt32) :
    World Heap :=
  let entries := entriesOf env owner .pvpRefs (w.units owner).pvpRefs
  entries.foldl
    (fun w entry =>
      -- only the first unit involved updates the timer
      if (w.combatRef entry.2).first = owner then
        if (w.combatRef entry.2).combatTimer ≤ tdiff then
          w.eraseAndEndCombat ops env owner true entry
        else
          w.modifyCombatRef entry.2 fun ref => { ref with combatTimer := ref.combatTimer - tdiff }
      else w) w

/-- The name of the map of one kind. -/
def refsName (pvp : Bool) : MapName := if pvp then .pvpRefs else .pveRefs

/-- The loop that ends combat with the references of one kind that fail a test. -/
def endCombatUnless (env : Surroundings) (w : World Heap) (owner : ObjectGuid) (pvp : Bool)
    (keep : CombatReference → Bool) : World Heap :=
  let entries := entriesOf env owner (refsName pvp) ((w.units owner).refs pvp)
  entries.foldl
    (fun w entry =>
      if keep (w.combatRef entry.2) then w else w.eraseAndEndCombat ops env owner pvp entry) w

/-- `EndCombatBeyondRange`. -/
def endCombatBeyondRange (env : Surroundings) (w : World Heap) (owner : ObjectGuid)
    (includingPvP : Bool) : World Heap :=
  let inRange (ref : CombatReference) := env.isWithinDistInMap ref.first ref.second
  let w := w.endCombatUnless ops env owner false inRange
  if includingPvP then w.endCombatUnless ops env owner true inRange else w

/-- `RevalidateCombat`. -/
def revalidateCombat (env : Surroundings) (w : World Heap) (owner : ObjectGuid) : World Heap :=
  let valid (ref : CombatReference) := env.canBeginCombat owner (ref.getOther owner)
  let w := w.endCombatUnless ops env owner false valid
  w.endCombatUnless ops env owner true valid

variable (env : Surroundings)

variable (w : World Heap)

/-- The tail of `EndAllPvECombat` and `EndAllPvPCombat`: collect what the filter accepts, then
end combat with each. -/
def endCombatWith (owner : ObjectGuid) (pvp : Bool) (unitFilter : UnitFilter) : World Heap :=
  let entries := entriesOf env owner (refsName pvp) ((w.units owner).refs pvp)
  let combatReferencesToRemove := entries.filter fun entry =>
    accepts unitFilter ((w.combatRef entry.2).getOther owner)
  combatReferencesToRemove.foldl (fun w entry => w.endCombat ops env entry.2) w

/-- `EndAllPvECombat`. -/
def endAllPvECombat (owner : ObjectGuid) (unitFilter : UnitFilter) : World Heap :=
  let w := w.removeMeFromThreatLists ops env owner unitFilter
  let w := w.clearAllThreat ops env owner
  w.endCombatWith ops env owner false unitFilter

/-- `EndAllPvPCombat`. -/
def endAllPvPCombat (owner : ObjectGuid) (unitFilter : UnitFilter) : World Heap :=
  w.endCombatWith ops env owner true unitFilter

/-! ### Adding threat -/

/-- The attributes of a spell that keep it from causing threat. -/
structure ThreatSpell where
  noThreat : Bool := false
  noInitialThreat : Bool := false
  deriving DecidableEq, Repr

/-- The shortcut that opens `ThreatManager::AddThreat`. -/
def causesNoThreat (owner : ObjectGuid) (spell : Option ThreatSpell) : Bool :=
  match spell with
  | none => false
  | some spell => spell.noThreat || (!env.isEngaged owner && spell.noInitialThreat)

/-- The entry of `target` is already on the list: more threat for it. -/
def addThreatToEntry (id : RefId) (amount : Float32) : World Heap :=
  let ref := w.threatRef id
  let w :=
    if ref.online = .suppressed ∧ env.shouldBeSuppressed ref = false then
      (w.modifyThreatRef id fun ref => { ref with online := .online }).heapNotifyIncreased ops id
    else w
  if (w.threatRef id).isOnline then w.refAddThreat ops id amount else w

/-- A new entry for `target`. -/
def addThreatEntry (owner target : ObjectGuid) (amount : Float32) : World Heap :=
  let id := w.nextRef
  let w := w.newThreatRef { owner := owner, victim := target }
  let w := w.putThreatListRef ops owner target id
  let w := w.putThreatenedByMeRef target owner id
  let w := w.updateOffline ops env id
  let w := if (w.threatRef id).isOnline then w.refAddThreat ops id amount else w
  if (w.units owner).currentVictimRef = none then w.updateVictim ops env owner else w

/-- The end of `ThreatManager::AddThreat`, from the point where threat implies combat. -/
def applyThreat (owner target : ObjectGuid) (amount : Float32) : World Heap :=
  let (w, inCombat) := w.setInCombatWith env owner target false
  if !inCombat then w
  else
    match (w.units owner).myThreatListEntries[target]? with
    | some id => w.addThreatToEntry ops env id amount
    | none => w.addThreatEntry ops env owner target amount

/-- `ThreatManager::AddThreat` ignoring redirects. -/
def addThreatIgnoringRedirects (owner target : ObjectGuid)
    (amount : Float32) (spell : Option ThreatSpell) (ignoreModifiers : Bool) : World Heap :=
  if causesNoThreat env owner spell then w
  else if !(w.units owner).ownerCanHaveThreatList then w
  else
    w.applyThreat ops env owner target
      (if ignoreModifiers then amount else env.calculateModifiedThreat amount target)

/-- `CalculatePct`. -/
def calculatePct (base : Float32) (pct : UInt32) : Float32 := base * pct.toFloat32 / 100

/-- The unit a redirection leads to, when it can be found. -/
def redirTarget (owner guid : ObjectGuid) : Option ObjectGuid :=
  match (w.units owner).myThreatListEntries[guid]? with
  | some id => some (w.threatRef id).victim
  | none => if env.getUnit owner guid then some guid else none

/-- The loop over the redirections: what is left of the amount. -/
def redirectThreat (env : Surroundings) (owner : ObjectGuid) (origAmount : Float32)
    (spell : Option ThreatSpell) :
    List (ObjectGuid × UInt32) → World Heap → Float32 → World Heap × Float32
  | [], w, amount => (w, amount)
  | (guid, pct) :: rest, w, amount =>
    match w.redirTarget env owner guid with
    | none => redirectThreat env owner origAmount spell rest w amount
    | some target =>
      let amountRedirected := calculatePct origAmount pct
      let w := w.addThreatIgnoringRedirects ops env owner target amountRedirected spell true
      redirectThreat env owner origAmount spell rest w (amount - amountRedirected)

/-- The loop that puts redirection targets in combat with an owner that has no threat list. -/
def engageRedirects (env : Surroundings) (owner : ObjectGuid) :
    List (ObjectGuid × UInt32) → World Heap → World Heap
  | [], w => w
  | (guid, _) :: rest, w =>
    if !w.isInCombatWith owner guid && env.getUnit owner guid then
      engageRedirects env owner rest (w.setInCombatWith env owner guid false).1
    else engageRedirects env owner rest w

/-- `ThreatManager::AddThreat`. -/
def addThreat (owner target : ObjectGuid)
    (amount : Float32) (spell : Option ThreatSpell) (ignoreModifiers ignoreRedirects : Bool) :
    World Heap :=
  if ignoreRedirects then
    w.addThreatIgnoringRedirects ops env owner target amount spell ignoreModifiers
  else if causesNoThreat env owner spell then w
  else if !(w.units owner).ownerCanHaveThreatList then
    let (w, inCombat) := w.setInCombatWith env owner target false
    if !inCombat then w else engageRedirects env owner (env.redirectInfo target) w
  else
    let amount := if ignoreModifiers then amount else env.calculateModifiedThreat amount target
    if amount > 0 then
      let (w, amount) :=
        redirectThreat ops env owner amount spell (env.redirectInfo target) w amount
      w.applyThreat ops env owner target amount
    else w.applyThreat ops env owner target amount

/-- The combat reference between two units, looked up in the manager of the first. -/
def referenceWith (who other : ObjectGuid) : Option RefId :=
  match (w.units who).pveRefs[other]? with
  | some id => some id
  | none => (w.units who).pvpRefs[other]?

end World

/-- The calls that edit combat and threat references. -/
inductive Call where
  | setInCombatWith (owner who : ObjectGuid) (addSecondUnitSuppressed : Bool)
  | suppressFor (who other : ObjectGuid)
  | suppressPvPCombat (owner : ObjectGuid) (unitFilter : World.UnitFilter)
  | endCombat (who other : ObjectGuid)
  | update (owner : ObjectGuid) (tdiff : UInt32)
  | endCombatBeyondRange (owner : ObjectGuid) (includingPvP : Bool)
  | revalidateCombat (owner : ObjectGuid)
  | endAllPvECombat (owner : ObjectGuid) (unitFilter : World.UnitFilter)
  | endAllPvPCombat (owner : ObjectGuid) (unitFilter : World.UnitFilter)
  | addThreat (owner target : ObjectGuid) (amount : Float32) (spell : Option World.ThreatSpell)
      (ignoreModifiers ignoreRedirects : Bool)
  | clearThreat (owner target : ObjectGuid)
  | clearAllThreat (owner : ObjectGuid)
  | removeMeFromThreatLists (owner : ObjectGuid) (unitFilter : World.UnitFilter)

/-- What one call does in its surroundings. -/
def step (ops : HeapOps Heap) (w : World Heap) : Surroundings × Call → World Heap
  | (env, .setInCombatWith owner who suppressed) =>
    (w.setInCombatWith env owner who suppressed).1
  | (_, .suppressFor who other) =>
    match w.referenceWith who other with
    | none => w
    | some id => w.suppressFor id who
  | (env, .suppressPvPCombat owner unitFilter) => w.suppressPvPCombat env owner unitFilter
  | (env, .endCombat who other) =>
    match w.referenceWith who other with
    | none => w
    | some id => w.endCombat ops env id
  | (env, .update owner tdiff) => w.update ops env owner tdiff
  | (env, .endCombatBeyondRange owner includingPvP) =>
    w.endCombatBeyondRange ops env owner includingPvP
  | (env, .revalidateCombat owner) => w.revalidateCombat ops env owner
  | (env, .endAllPvECombat owner unitFilter) => w.endAllPvECombat ops env owner unitFilter
  | (env, .endAllPvPCombat owner unitFilter) => w.endAllPvPCombat ops env owner unitFilter
  | (env, .addThreat owner target amount spell ignoreModifiers ignoreRedirects) =>
    w.addThreat ops env owner target amount spell ignoreModifiers ignoreRedirects
  | (env, .clearThreat owner target) => w.clearThreat ops env owner target
  | (env, .clearAllThreat owner) => w.clearAllThreat ops env owner
  | (env, .removeMeFromThreatLists owner unitFilter) =>
    w.removeMeFromThreatLists ops env owner unitFilter

/-- Units without references, some of which can have a threat list. -/
def World.initial (ops : HeapOps Heap) (canHaveThreatList : ObjectGuid → Bool) : World Heap where
  units who := { ownerCanHaveThreatList := canHaveThreatList who, sortedThreatList := ops.empty }

end TrinityCore.Combat
