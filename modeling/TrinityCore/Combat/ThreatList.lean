import TrinityCore.Combat.World

/-!
# Threat lists

`ThreatReference` and the part of `ThreatManager.cpp` that works on threat lists alone: the
changes of a sort key with their heap notifications, the selection of a victim, and the
removal of references. Packets and AI calls are left out.
-/

namespace TrinityCore.Combat

variable {Heap : Type}

namespace World

section

variable (ops : HeapOps Heap)

variable (w : World Heap)

/-- `HeapNotifyIncreased`. -/
def heapNotifyIncreased (id : RefId) : World Heap :=
  w.modifyUnit (w.threatRef id).owner fun unit =>
    { unit with sortedThreatList := ops.increase w.threatRef id unit.sortedThreatList }

/-- `HeapNotifyDecreased`. -/
def heapNotifyDecreased (id : RefId) : World Heap :=
  w.modifyUnit (w.threatRef id).owner fun unit =>
    { unit with sortedThreatList := ops.decrease w.threatRef id unit.sortedThreatList }

/-- `ThreatReference::AddThreat`. -/
def refAddThreat (id : RefId) (amount : Float32) : World Heap :=
  if amount == 0 then w
  else
    let w := w.modifyThreatRef id fun ref =>
      { ref with baseAmount := stdMax (ref.baseAmount + amount) 0 }
    if amount > 0 then w.heapNotifyIncreased ops id else w.heapNotifyDecreased ops id

/-- `ThreatReference::ScaleThreat`. -/
def refScaleThreat (id : RefId) (factor : Float32) : World Heap :=
  if factor == 1 then w
  else
    let w := w.modifyThreatRef id fun ref => { ref with baseAmount := ref.baseAmount * factor }
    if factor > 1 then w.heapNotifyIncreased ops id else w.heapNotifyDecreased ops id

variable (env : Surroundings)

/-- `ThreatReference::UpdateOffline`. -/
def updateOffline (w : World Heap) (id : RefId) : World Heap :=
  let ref := w.threatRef id
  let shouldBeOffline := env.shouldBeOffline ref.owner ref.victim
  if shouldBeOffline = ref.isOffline then w
  else if shouldBeOffline then
    (w.modifyThreatRef id fun ref => { ref with online := .offline }).heapNotifyDecreased ops id
  else
    let state := if env.shouldBeSuppressed ref then OnlineState.suppressed else .online
    (w.modifyThreatRef id fun ref => { ref with online := state }).heapNotifyIncreased ops id

/-- The search of `ReselectVictim` below the highest reference, down the ordered list. -/
def nextVictim (env : Surroundings) (w : World Heap) (owner : ObjectGuid) (old : RefId) :
    List RefId → Option RefId
  | [] => none
  | next :: rest =>
    if next = old then some next
    else if !compareReferencesLT (w.threatRef old) (w.threatRef next) 1.1 then some old
    else if env.isWithinMeleeRange owner (w.threatRef next).victim then some next
    else nextVictim env w owner old rest

/-- The choice of `ReselectVictim` once every reference is up to date. -/
def chooseVictim (w : World Heap) (owner : ObjectGuid) : Option RefId :=
  let unit := w.units owner
  match unit.fixateRef.filter fun id => (w.threatRef id).isAvailable with
  | some fixate => some fixate
  | none =>
    let oldVictimRef := unit.currentVictimRef.filter fun id => !(w.threatRef id).isOffline
    match ops.ordered w.threatRef unit.sortedThreatList with
    | [] => none
    | highest :: rest =>
      if !(w.threatRef highest).isAvailable then none
      else
        match oldVictimRef with
        | none => some highest
        | some old =>
          if highest = old then some highest
          else if !compareReferencesLT (w.threatRef old) (w.threatRef highest) 1.1 then some old
          else if compareReferencesLT (w.threatRef old) (w.threatRef highest) 1.3 then some highest
          else if env.isWithinMeleeRange owner (w.threatRef highest).victim then some highest
          else nextVictim env w owner old (highest :: rest)

/-- The entries of a map in iteration order. -/
def entriesOf (who : ObjectGuid) (name : MapName)
    (entries : Std.ExtTreeMap ObjectGuid RefId) : List (ObjectGuid × RefId) :=
  (env.iterate who name entries.keys).filterMap fun key =>
    entries[key]?.map fun id => (key, id)

/-- `ReselectVictim`. -/
def reselectVictim (w : World Heap) (owner : ObjectGuid) : World Heap × Option RefId :=
  let unit := w.units owner
  if (ops.ordered w.threatRef unit.sortedThreatList).isEmpty then (w, none)
  else
    let entries := entriesOf env owner .myThreatListEntries unit.myThreatListEntries
    let w := entries.foldl (fun w entry => w.updateOffline ops env entry.2) w
    (w, chooseVictim ops env w owner)

/-- `UpdateVictim`. -/
def updateVictim (w : World Heap) (owner : ObjectGuid) : World Heap :=
  let (w, newVictim) := w.reselectVictim ops env owner
  w.modifyUnit owner fun unit => { unit with currentVictimRef := newVictim }

/-- `PutThreatListRef`. -/
def putThreatListRef (owner guid : ObjectGuid) (id : RefId) : World Heap :=
  w.modifyUnit owner fun unit =>
    { unit with
      myThreatListEntries := unit.myThreatListEntries.insert guid id
      sortedThreatList := ops.push w.threatRef id unit.sortedThreatList }

/-- `PurgeThreatListRef`. -/
def purgeThreatListRef (owner guid : ObjectGuid) : World Heap :=
  match (w.units owner).myThreatListEntries[guid]? with
  | none => w
  | some id =>
    w.modifyUnit owner fun unit =>
      { unit with
        myThreatListEntries := unit.myThreatListEntries.erase guid
        sortedThreatList := ops.erase w.threatRef id unit.sortedThreatList
        fixateRef := if unit.fixateRef = some id then none else unit.fixateRef
        currentVictimRef :=
          if unit.currentVictimRef = some id then none else unit.currentVictimRef }

end

/-- `PutThreatenedByMeRef`. -/
def putThreatenedByMeRef (w : World Heap) (victim guid : ObjectGuid) (id : RefId) : World Heap :=
  w.modifyUnit victim fun unit =>
    { unit with threatenedByMe := unit.threatenedByMe.insert guid id }

/-- `PurgeThreatenedByMeRef`. -/
def purgeThreatenedByMeRef (w : World Heap) (victim guid : ObjectGuid) : World Heap :=
  w.modifyUnit victim fun unit => { unit with threatenedByMe := unit.threatenedByMe.erase guid }

/-- Allocate a threat reference. -/
def newThreatRef (w : World Heap) (ref : ThreatReference) : World Heap :=
  { w with threatRefs := w.threatRefs.insert w.nextRef ref, nextRef := w.nextRef + 1 }

/-- Free a threat reference. -/
def deleteThreatRef (w : World Heap) (id : RefId) : World Heap :=
  { w with threatRefs := w.threatRefs.erase id }

variable (ops : HeapOps Heap)

/-- `UnregisterAndFree`; a pointer to nothing does nothing. -/
def unregisterAndFree (w : World Heap) (id : RefId) : World Heap :=
  match w.threatRefs[id]? with
  | none => w
  | some ref =>
    let w := w.purgeThreatListRef ops ref.owner ref.victim
    let w := w.purgeThreatenedByMeRef ref.victim ref.owner
    w.deleteThreatRef id

/-- `ClearThreat` of a reference on the list of `owner`. -/
def clearThreatRef (env : Surroundings) (w : World Heap) (owner : ObjectGuid) (id : RefId) :
    World Heap :=
  let w := w.unregisterAndFree ops id
  if (w.units owner).currentVictimRef = none then w.updateVictim ops env owner else w

/-- `ClearThreat`. -/
def clearThreat (env : Surroundings) (w : World Heap) (owner target : ObjectGuid) : World Heap :=
  match (w.units owner).myThreatListEntries[target]? with
  | none => w
  | some id => w.clearThreatRef ops env owner id

/-- `ClearAllThreat`. -/
def clearAllThreat (env : Surroundings) (w : World Heap) (owner : ObjectGuid) : World Heap :=
  let entries := entriesOf env owner .myThreatListEntries (w.units owner).myThreatListEntries
  entries.foldl (fun w entry => w.unregisterAndFree ops entry.2) w

/-- A unit filter; none accepts every unit. -/
abbrev UnitFilter := Option (ObjectGuid → Bool)

/-- The filter accepts the unit. -/
def accepts (unitFilter : UnitFilter) (unit : ObjectGuid) : Bool :=
  match unitFilter with
  | none => true
  | some filter => filter unit

/-- `RemoveMeFromThreatLists`. -/
def removeMeFromThreatLists (env : Surroundings) (w : World Heap) (owner : ObjectGuid)
    (unitFilter : UnitFilter) : World Heap :=
  let entries := entriesOf env owner .threatenedByMe (w.units owner).threatenedByMe
  let threatReferencesToRemove := entries.filter fun entry =>
    accepts unitFilter (w.threatRef entry.2).owner
  threatReferencesToRemove.foldl
    (fun w entry => w.clearThreat ops env (w.threatRef entry.2).owner owner) w

end World

end TrinityCore.Combat
