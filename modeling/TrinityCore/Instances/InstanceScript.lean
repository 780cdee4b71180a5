import Mathlib.Data.Finset.Basic
import Std.Data.ExtTreeSet.Lemmas
import TrinityCore.Entities.ObjectGuid
import TrinityCore.Lib.ByteStream

/-!
# Instance scripts

`InstanceScript.h` and `InstanceScript.cpp`: the bosses of an instance with their doors and
minions, its save data, and the spawn groups that follow the bosses. Creatures are what the map
shows at the time of a call; packets, the database and what a spawn group spawns are left out.
-/

namespace TrinityCore.Instances

/-- `EncounterState`. -/
inductive EncounterState where
  | notStarted
  | inProgress
  | fail
  | done
  | special
  | toBeDecided
  deriving DecidableEq, Repr

namespace EncounterState

/-- The number of a state. -/
def toNat : EncounterState → Nat
  | notStarted => 0
  | inProgress => 1
  | fail => 2
  | done => 3
  | special => 4
  | toBeDecided => 5

/-- `EncounterState(value)`, of a value below `TO_BE_DECIDED`. -/
def ofUInt32 (value : UInt32) : EncounterState :=
  match value.toNat with
  | 0 => notStarted
  | 1 => inProgress
  | 2 => fail
  | 3 => done
  | 4 => special
  | _ => toBeDecided

end EncounterState

/-- `DoorType`. -/
inductive DoorType where
  | room
  | passage
  | spawnHole
  deriving DecidableEq, Repr

/-- The door types in the order of their numbers. -/
def DoorType.all : List DoorType := [.room, .passage, .spawnHole]

/-- `GuidSet`. -/
abbrev GuidSet := Std.ExtTreeSet ObjectGuid

/-- `BossInfo`. -/
structure BossInfo where
  state : EncounterState := .toBeDecided
  attemptEpoch : UInt64 := 0
  door : DoorType → GuidSet := fun _ => ∅
  minion : GuidSet := ∅

/-- `InstanceEncounterLifecycle::NextAttemptEpoch`. -/
def nextAttemptEpoch (previousState nextState : EncounterState) (currentEpoch : UInt64) : UInt64 :=
  let startsAttempt := (previousState == .notStarted || previousState == .fail)
    && nextState == .inProgress
  if startsAttempt then currentEpoch + 1 else currentEpoch

/-- `DoorInfo`: the boss by its number. -/
structure DoorInfo where
  bossInfo : Nat
  type : DoorType
  deriving DecidableEq, Repr

/-- `DoorData`. -/
structure DoorData where
  entry : UInt32
  bossId : UInt32
  type : DoorType
  deriving DecidableEq, Repr

/-- `InstanceSpawnGroupInfo`. -/
structure InstanceSpawnGroupInfo where
  bossStateId : UInt8
  bossStates : UInt8
  spawnGroupId : UInt32
  flags : UInt8
  deriving DecidableEq, Repr

/-- A flag of a row. -/
def InstanceSpawnGroupInfo.hasFlag (info : InstanceSpawnGroupInfo) (flag : UInt8) : Bool :=
  info.flags &&& flag != 0

/-- What `SpawnGroupTemplateData` says of a spawn group. -/
structure SpawnGroupTemplateData where
  system : Bool := false
  manualSpawn : Bool := false
  deriving DecidableEq, Repr

/-- `GOState`, as far as doors have it. -/
inductive GOState where
  | active
  | ready
  deriving DecidableEq, Repr

/-- `GameObject`. -/
structure GameObject where
  entry : UInt32
  goState : GOState := .ready
  deriving DecidableEq, Repr

/-- `TeamId`. -/
inductive TeamId where
  | alliance
  | horde
  | neutral
  deriving DecidableEq, Repr

/-- `InstanceMap`. -/
structure InstanceMap where
  gameObjects : Std.ExtTreeMap ObjectGuid GameObject := ∅
  teamIdInInstance : TeamId := .neutral
  spawnGroupData : UInt32 → Option SpawnGroupTemplateData := fun _ => none
  toggledSpawnGroupIds : Finset UInt32 := ∅

namespace InstanceMap

/-- `SetSpawnGroupActive`. -/
def setSpawnGroupActive (map : InstanceMap) (groupId : UInt32) (state : Bool) : InstanceMap :=
  match map.spawnGroupData groupId with
  | none => map
  | some data =>
    if data.system then map
    else if state != !data.manualSpawn then
      { map with toggledSpawnGroupIds := insert groupId map.toggledSpawnGroupIds }
    else { map with toggledSpawnGroupIds := map.toggledSpawnGroupIds.erase groupId }

/-- `IsSpawnGroupActive`. -/
def isSpawnGroupActive (map : InstanceMap) (groupId : UInt32) : Bool :=
  match map.spawnGroupData groupId with
  | none => false
  | some data =>
    if data.system then true
    else decide (groupId ∈ map.toggledSpawnGroupIds) != !data.manualSpawn

/-- `SpawnGroupSpawn` and `SetSpawnGroupInactive`. -/
def spawnOrDisable (map : InstanceMap) (groupId : UInt32) (doSpawn : Bool) : InstanceMap :=
  if map.isSpawnGroupActive groupId == doSpawn then map
  else map.setSpawnGroupActive groupId doSpawn

/-- `GameObject::SetGoState` of an object of the map. -/
def setGoState (map : InstanceMap) (guid : ObjectGuid) (state : GOState) : InstanceMap :=
  { map with gameObjects := map.gameObjects.modify guid fun go => { go with goState := state } }

end InstanceMap

/-- What a call sees of a creature of the map. -/
structure Creature where
  isWorldBoss : Bool
  isAlive : Bool
  deriving DecidableEq, Repr

/-- `InstanceScript`. -/
structure InstanceScript where
  map : InstanceMap := {}
  headers : List UInt8 := []
  bosses : List BossInfo := []
  doors : List (UInt32 × DoorInfo) := []
  instanceSpawnGroups : List InstanceSpawnGroupInfo := []

namespace InstanceScript

variable (script : InstanceScript)

/-- `SetBossNumber`, of a script without bosses. -/
def setBossNumber (number : Nat) : InstanceScript :=
  { script with bosses := List.replicate number {} }

/-- `LoadDoorData`. -/
def loadDoorData (data : List DoorData) : InstanceScript :=
  { script with
    doors := script.doors ++ ((data.takeWhile (·.entry != 0)).filter fun row =>
      decide (row.bossId.toNat < script.bosses.length)).map fun row =>
        (row.entry, { bossInfo := row.bossId.toNat, type := row.type }) }

/-- `GetBossState`. -/
def getBossState (id : Nat) : EncounterState :=
  match script.bosses[id]? with
  | some bossInfo => bossInfo.state
  | none => .toBeDecided

/-- `doors.equal_range`. -/
def doorRange (entry : UInt32) : List DoorInfo :=
  (script.doors.filter (·.1 == entry)).map Prod.snd

/-- Whether a rule of a door lets it be open. -/
def allowsOpen (info : DoorInfo) : Bool :=
  match info.type with
  | .room => script.getBossState info.bossInfo != .inProgress
  | .passage => script.getBossState info.bossInfo == .done
  | .spawnHole => script.getBossState info.bossInfo == .inProgress

/-- The loop of `UpdateDoorState`, which stops at the first rule that keeps the door closed. -/
def doorOpen (range : List DoorInfo) : Bool :=
  range.foldl (fun isOpen info => if isOpen then script.allowsOpen info else isOpen) true

/-- `UpdateDoorState`. -/
def updateDoorState (guid : ObjectGuid) : InstanceScript :=
  match script.map.gameObjects[guid]? with
  | none => script
  | some door =>
    let range := script.doorRange door.entry
    if range.isEmpty then script
    else
      let state : GOState := if script.doorOpen range then .active else .ready
      { script with map := script.map.setGoState guid state }

/-- The values of `newStates` in `UpdateSpawnGroups`. -/
inductive SpawnState where
  | block
  | spawn
  | forceBlock
  deriving DecidableEq, Repr

/-- Whether a row is about the current state of its boss and the team of the instance. -/
def isApplicable (info : InstanceSpawnGroupInfo) : Bool :=
  (1 <<< (script.getBossState info.bossStateId.toNat).toNat) &&& info.bossStates.toNat != 0
    && !((script.map.teamIdInInstance == .alliance && info.hasFlag 0x08)
      || (script.map.teamIdInInstance == .horde && info.hasFlag 0x04))

/-- What a row makes of the value of its group. -/
def nextSpawnState (info : InstanceSpawnGroupInfo) (curValue : SpawnState) : SpawnState :=
  if curValue = .forceBlock then curValue
  else if !script.isApplicable info then curValue
  else if info.hasFlag 0x02 then .forceBlock
  else if info.hasFlag 0x01 then .spawn
  else curValue

/-- One round of the loop over the rows. -/
def updateNewStates (newStates : Std.ExtTreeMap UInt32 SpawnState)
    (info : InstanceSpawnGroupInfo) : Std.ExtTreeMap UInt32 SpawnState :=
  newStates.insert info.spawnGroupId
    (script.nextSpawnState info (newStates.getD info.spawnGroupId .block))

/-- `UpdateSpawnGroups`; its groups do not depend on each other's order. -/
def updateSpawnGroups : InstanceScript :=
  let newStates := script.instanceSpawnGroups.foldl script.updateNewStates ∅
  { script with
    map := newStates.toList.foldl
      (fun map pair => map.spawnOrDisable pair.1 (pair.2 == .spawn)) script.map }

/-- Replace the sets of doors of a boss. -/
def modifyDoors (info : DoorInfo) (f : GuidSet → GuidSet) : InstanceScript :=
  { script with
    bosses := script.bosses.modify info.bossInfo fun bossInfo =>
      { bossInfo with
        door := fun type => if type = info.type then f (bossInfo.door type)
          else bossInfo.door type } }

/-- `AddDoor` of a new door; the door joins the map after that. -/
def onGameObjectCreate (guid : ObjectGuid) (go : GameObject) : InstanceScript :=
  let range := script.doorRange go.entry
  let script := range.foldl (fun script info => script.modifyDoors info (·.insert guid)) script
  let script := { script with
    map := { script.map with
      gameObjects := script.map.gameObjects.insert guid go } }
  script.updateDoorState guid

/-- `AddDoor` of a door that leaves, and leaves the map after that. -/
def onGameObjectRemove (guid : ObjectGuid) : InstanceScript :=
  match script.map.gameObjects[guid]? with
  | none => script
  | some go =>
    let range := script.doorRange go.entry
    let script := range.foldl (fun script info => script.modifyDoors info (·.erase guid)) script
    { script with
      map := { script.map with
        gameObjects := script.map.gameObjects.erase guid } }

/-- Whether a world boss among the minions of a boss is alive. -/
def guarded (bossInfo : BossInfo) (creatures : ObjectGuid → Option Creature) : Bool :=
  bossInfo.minion.toList.any fun guid =>
    match creatures guid with
    | some minion => minion.isWorldBoss && minion.isAlive
    | none => false

variable (creatures : ObjectGuid → Option Creature)

/-- `SetBossState`. -/
def setBossState (id : Nat) (state : EncounterState) : InstanceScript × Bool :=
  match script.bosses[id]? with
  | none => (script, false)
  | some bossInfo =>
    if bossInfo.state = .toBeDecided then
      ({ script with bosses := script.bosses.set id { bossInfo with state := state } }, false)
    else if bossInfo.state = state then (script, false)
    else if bossInfo.state = .done then (script, false)
    else if state = .done ∧ guarded bossInfo creatures = true then (script, false)
    else
      let bossInfo := { bossInfo with
        attemptEpoch := nextAttemptEpoch bossInfo.state state bossInfo.attemptEpoch
        state := state }
      let script := { script with bosses := script.bosses.set id bossInfo }
      let script := (DoorType.all.flatMap fun type => (bossInfo.door type).toList).foldl
        updateDoorState script
      (script.updateSpawnGroups, true)

/-- `Create`. -/
def create : InstanceScript :=
  ((List.range script.bosses.length).foldl
    (fun script id => (script.setBossState creatures id .notStarted).1) script).updateSpawnGroups

/-- What the variables that `Load` leaves without a value happen to hold. -/
structure Uninitialised where
  header : UInt8
  state : Nat → UInt32

/-- `ReadSaveDataHeaders`. -/
def readSaveDataHeaders (buff : UInt8) :
    List UInt8 → Option (List UInt8) → Option (Option (List UInt8))
  | [], data => some data
  | header :: headers, data =>
    let (read, data) := ByteStream.extractChar buff data
    if header ≠ read then none else readSaveDataHeaders buff headers data

/-- One round of the loop of `ReadSaveDataBossStates`. -/
def readBossState (bossId : Nat) (buff : UInt32) : InstanceScript :=
  let buff := if buff = 1 ∨ buff = 2 ∨ buff = 4 then 0 else buff
  if buff < 5 then (script.setBossState creatures bossId (.ofUInt32 buff)).1 else script

/-- `ReadSaveDataBossStates`: the script, and the data left. -/
def readSaveDataBossStates
    (uninitialised : Nat → UInt32) (data : Option (List UInt8)) : InstanceScript :=
  ((List.range script.bosses.length).foldl
    (fun read bossId =>
      let (buff, data) := ByteStream.extractUInt32 (uninitialised bossId) read.2
      (read.1.readBossState creatures bossId buff, data))
    (script, data)).1.updateSpawnGroups

/-- `Load`. -/
def load (uninitialised : Uninitialised) (data : List UInt8) : InstanceScript :=
  match readSaveDataHeaders uninitialised.header script.headers (some data) with
  | none => script
  | some rest => script.readSaveDataBossStates creatures uninitialised.state rest

/-- `GetSaveData`. -/
def getSaveData : List UInt8 :=
  (script.headers.flatMap fun header => [header, 32])
    ++ script.bosses.flatMap fun bossInfo => ByteStream.decimal bossInfo.state.toNat ++ [32]

end InstanceScript

end TrinityCore.Instances
