import Mathlib.Algebra.Ring.Int.Defs
import Mathlib.Algebra.Ring.Nat
import Mathlib.Data.Finset.Basic
import TrinityCore.Lib.CountedMap

/-!
# Pools of spawns

`SpawnedPoolData`, `PoolGroup` and `PoolMgr`: which members of a pool are spawned. The objects
on the map and their respawn times are left out. The random numbers are read from a tape.
`mSpawnedPools` counts without a bound; the number still to be spawned is the `int` of the
source.
-/

namespace TrinityCore.Pools

/-- The kinds of members a pool has. -/
inductive MemberType
  | creature
  | gameobject
  | pool
  deriving DecidableEq, Repr

/-- `PoolObject`. -/
structure PoolObject where
  guid : UInt32
  chance : Float32

/-- `PoolGroup`. -/
structure PoolGroup where
  explicitlyChanced : List PoolObject := []
  equalChanced : List PoolObject := []

namespace PoolGroup

/-- All members. -/
def objects (group : PoolGroup) : List PoolObject := group.equalChanced ++ group.explicitlyChanced

/-- `isEmpty`. -/
def isEmpty (group : PoolGroup) : Bool :=
  group.explicitlyChanced.isEmpty && group.equalChanced.isEmpty

end PoolGroup

/-- `PoolMgr` after loading. Every member is in the pool the search map names, once, and the
pools form no cycle: a pool has a greater rank than its child pools. A pool without a group of
some type has an empty one. -/
structure PoolMgr where
  /-- `mPoolTemplate[pool].MaxLimit`. -/
  maxLimit : UInt32 → UInt32
  /-- `mPoolCreatureGroups`, `mPoolGameobjectGroups` and `mPoolPoolGroups`. -/
  groups : MemberType → UInt32 → PoolGroup
  /-- `mCreatureSearchMap`, `mGameobjectSearchMap` and `mPoolSearchMap`. -/
  searchMap : MemberType → UInt32 → Option UInt32
  rank : UInt32 → Nat
  searchMap_of_mem : ∀ t pool obj, obj ∈ (groups t pool).objects → searchMap t obj.guid = some pool
  mem_of_searchMap : ∀ t guid pool, searchMap t guid = some pool →
    guid ∈ (groups t pool).objects.map PoolObject.guid
  nodup : ∀ t pool, ((groups t pool).objects.map PoolObject.guid).Nodup
  rank_lt : ∀ child pool, searchMap .pool child = some pool → rank child < rank pool

/-- The random numbers, in the order they are drawn. -/
structure Random where
  randChance : Nat → Float32
  urand : Nat → Nat

/-- `SpawnedPoolData`, and how many random numbers have been drawn. -/
structure SpawnedPoolData where
  spawnedCreatures : Finset UInt32 := ∅
  spawnedGameobjects : Finset UInt32 := ∅
  spawnedPools : AList (fun _ : UInt32 => Nat) := ∅
  draws : Nat := 0

namespace SpawnedPoolData

variable (s : SpawnedPoolData)

/-- `GetSpawnedObjects`. -/
def getSpawnedObjects (pool : UInt32) : Nat :=
  (s.spawnedPools.lookup pool).getD 0

/-- `IsSpawnedObject`. -/
def isSpawnedObject : MemberType → UInt32 → Bool
  | .creature, guid => guid ∈ s.spawnedCreatures
  | .gameobject, guid => guid ∈ s.spawnedGameobjects
  | .pool, pool => (s.spawnedPools.lookup pool).isSome

/-- `++mSpawnedPools[pool]`. -/
def increment (pool : UInt32) : SpawnedPoolData :=
  { s with spawnedPools := s.spawnedPools.insert pool (s.getSpawnedObjects pool + 1) }

/-- `mSpawnedPools[pool]` goes down if it is not zero. -/
def decrement (pool : UInt32) : SpawnedPoolData :=
  { s with spawnedPools := s.spawnedPools.insert pool (s.getSpawnedObjects pool - 1) }

/-- `AddSpawn`. -/
def addSpawn (t : MemberType) (guid pool : UInt32) : SpawnedPoolData :=
  match t with
  | .creature => { s with spawnedCreatures := insert guid s.spawnedCreatures }.increment pool
  | .gameobject => { s with spawnedGameobjects := insert guid s.spawnedGameobjects }.increment pool
  | .pool => { s with spawnedPools := s.spawnedPools.insert guid 0 }.increment pool

/-- `RemoveSpawn`. -/
def removeSpawn (t : MemberType) (guid pool : UInt32) : SpawnedPoolData :=
  match t with
  | .creature => { s with spawnedCreatures := s.spawnedCreatures.erase guid }.decrement pool
  | .gameobject => { s with spawnedGameobjects := s.spawnedGameobjects.erase guid }.decrement pool
  | .pool => { s with spawnedPools := s.spawnedPools.erase guid }.decrement pool

end SpawnedPoolData

/-- One round of the loops of `PoolGroup::DespawnObject`; `despawn1` is `Despawn1Object`. -/
def despawnIfSpawned (t : MemberType) (despawn1 : UInt32 → SpawnedPoolData → SpawnedPoolData)
    (poolId guid : UInt32) (s : SpawnedPoolData) (obj : PoolObject) : SpawnedPoolData :=
  if s.isSpawnedObject t obj.guid then
    if guid = 0 ∨ obj.guid = guid then (despawn1 obj.guid s).removeSpawn t obj.guid poolId else s
  else s

/-- `PoolGroup::DespawnObject`. -/
def despawnObject (t : MemberType) (despawn1 : UInt32 → SpawnedPoolData → SpawnedPoolData)
    (poolId : UInt32) (group : PoolGroup) (guid : UInt32) (s : SpawnedPoolData) :
    SpawnedPoolData :=
  let s := group.equalChanced.foldl (despawnIfSpawned t despawn1 poolId guid) s
  group.explicitlyChanced.foldl (despawnIfSpawned t despawn1 poolId guid) s

/-- Whether `SpawnObject` may roll a member. -/
def rollable (s : SpawnedPoolData) (t : MemberType) (triggerFrom : UInt32) (obj : PoolObject) :
    Bool := obj.guid = triggerFrom || !s.isSpawnedObject t obj.guid

/-- The loop of `SpawnObject` over the members with a chance of their own. -/
def rollExplicitlyChanced (s : SpawnedPoolData) (t : MemberType) (triggerFrom : UInt32) :
    Float32 → List PoolObject → List PoolObject
  | _, [] => []
  | roll, obj :: rest =>
    let roll := roll - obj.chance
    if roll < 0 && rollable s t triggerFrom obj then [obj]
    else rollExplicitlyChanced s t triggerFrom roll rest

/-- The loop of `RandomResize`, with the number of elements to keep. -/
def keepRandom (random : Random) : Nat → Nat → List PoolObject → List PoolObject
  | _, _, [] => []
  | draws, elementsToKeep, obj :: rest =>
    let elementsToProcess := rest.length + 1
    if 1 + random.urand draws % elementsToProcess ≤ elementsToKeep then
      obj :: keepRandom random (draws + 1) (elementsToKeep - 1) rest
    else keepRandom random (draws + 1) elementsToKeep rest

/-- `RandomResize`. -/
def randomResize (random : Random) (draws : Nat) (container : List PoolObject)
    (requestedSize : Nat) : List PoolObject × Nat :=
  if container.length ≤ requestedSize then (container, draws)
  else (keepRandom random draws requestedSize container, draws + container.length)

/-- The members `SpawnObject` rolls, and the numbers drawn for it. -/
def rollObjects (random : Random) (s : SpawnedPoolData) (t : MemberType) (group : PoolGroup)
    (count : Nat) (triggerFrom : UInt32) : List PoolObject × Nat :=
  let (rolled, draws) :=
    if group.explicitlyChanced.isEmpty then ([], s.draws)
    else (rollExplicitlyChanced s t triggerFrom (random.randChance s.draws)
      group.explicitlyChanced, s.draws + 1)
  if !group.equalChanced.isEmpty && rolled.isEmpty then
    randomResize random draws (group.equalChanced.filter (rollable s t triggerFrom)) count
  else (rolled, draws)

/-- The loop of `SpawnObject` over the rolled members, with what is left of `triggerFrom`;
`spawn1` is `Spawn1Object`. `ReSpawn1Object` changes only what is on the map. -/
def spawnRolled (t : MemberType) (spawn1 : UInt32 → SpawnedPoolData → SpawnedPoolData)
    (poolId : UInt32) :
    List PoolObject → UInt32 → SpawnedPoolData → SpawnedPoolData × UInt32
  | [], triggerFrom, s => (s, triggerFrom)
  | obj :: rest, triggerFrom, s =>
    if obj.guid = triggerFrom then spawnRolled t spawn1 poolId rest 0 s
    else
      spawnRolled t spawn1 poolId rest triggerFrom
        (spawn1 obj.guid (s.addSpawn t obj.guid poolId))

/-- A conversion to `int`. -/
def toInt (n : Int) : Int := n.bmod (2 ^ 32)

/-- `PoolGroup::SpawnObject`. -/
def spawnObject (random : Random) (t : MemberType)
    (spawn1 despawn1 : UInt32 → SpawnedPoolData → SpawnedPoolData) (poolId : UInt32)
    (group : PoolGroup) (limit triggerFrom : UInt32) (s : SpawnedPoolData) : SpawnedPoolData :=
  let count := toInt (limit.toNat - s.getSpawnedObjects poolId)
  let count := if triggerFrom ≠ 0 then toInt (count + 1) else count
  let (s, triggerFrom) :=
    if 0 < count then
      let (rolled, draws) := rollObjects random s t group count.toNat triggerFrom
      spawnRolled t spawn1 poolId rolled triggerFrom { s with draws := draws }
    else (s, triggerFrom)
  if triggerFrom ≠ 0 then despawnObject t despawn1 poolId group triggerFrom s else s

namespace PoolMgr

variable (m : PoolMgr)

/-- The part of `DespawnPool` for members of one type; `despawn1` is `Despawn1Object`. -/
def despawnMembers (t : MemberType)
    (despawn1 : UInt32 → SpawnedPoolData → SpawnedPoolData) (pool : UInt32)
    (s : SpawnedPoolData) : SpawnedPoolData :=
  if (m.groups t pool).isEmpty then s else despawnObject t despawn1 pool (m.groups t pool) 0 s

/-- `DespawnPool`, through at most `depth` levels of child pools. -/
def despawnPoolTo (m : PoolMgr) : Nat → UInt32 → SpawnedPoolData → SpawnedPoolData
  | 0, _, s => s
  | depth + 1, pool, s =>
    m.despawnMembers .pool (m.despawnPoolTo depth) pool
      (m.despawnMembers .gameobject (fun _ s => s) pool
        (m.despawnMembers .creature (fun _ s => s) pool s))

/-- `DespawnPool`. The rank of a pool bounds the levels below it. -/
def despawnPool (pool : UInt32) (s : SpawnedPoolData) : SpawnedPoolData :=
  m.despawnPoolTo (m.rank pool + 1) pool s

/-- `Despawn1Object`, as far as the members are marked. -/
def despawn1Object : MemberType → UInt32 → SpawnedPoolData → SpawnedPoolData
  | .pool => m.despawnPool
  | _ => fun _ s => s

/-- `SpawnPool` for members of one type; `spawn1` is `Spawn1Object`. -/
def spawnMembers (random : Random) (t : MemberType)
    (spawn1 : UInt32 → SpawnedPoolData → SpawnedPoolData) (pool guid : UInt32)
    (s : SpawnedPoolData) : SpawnedPoolData :=
  if (m.groups t pool).isEmpty then s
  else
    spawnObject random t spawn1 (m.despawn1Object t) pool (m.groups t pool) (m.maxLimit pool)
      guid s

/-- `SpawnPool`, through at most `depth` levels of child pools. -/
def spawnPoolTo (m : PoolMgr) (random : Random) :
    Nat → UInt32 → SpawnedPoolData → SpawnedPoolData
  | 0, _, s => s
  | depth + 1, pool, s =>
    m.spawnMembers random .creature (fun _ s => s) pool 0
      (m.spawnMembers random .gameobject (fun _ s => s) pool 0
        (m.spawnMembers random .pool (m.spawnPoolTo random depth) pool 0 s))

/-- `SpawnPool`. -/
def spawnPool (random : Random) (pool : UInt32) (s : SpawnedPoolData) :
    SpawnedPoolData := m.spawnPoolTo random (m.rank pool + 1) pool s

/-- `Spawn1Object`, as far as the members are marked. -/
def spawn1Object (random : Random) : MemberType → UInt32 → SpawnedPoolData → SpawnedPoolData
  | .pool => m.spawnPool random
  | _ => fun _ s => s

/-- `IsPartOfAPool`. -/
def isPartOfAPool (t : MemberType) (guid : UInt32) : UInt32 :=
  (m.searchMap t guid).getD 0

/-- `UpdatePool`. -/
def updatePool (random : Random) (t : MemberType) (pool guid : UInt32)
    (s : SpawnedPoolData) : SpawnedPoolData :=
  let motherpoolid := m.isPartOfAPool .pool pool
  if motherpoolid ≠ 0 then
    m.spawnMembers random .pool (m.spawn1Object random .pool) motherpoolid pool s
  else m.spawnMembers random t (m.spawn1Object random t) pool guid s

end PoolMgr

/-- An operation on the pools. -/
inductive Op
  | spawnPool (pool : UInt32)
  | despawnPool (pool : UInt32)
  | updatePool (t : MemberType) (pool guid : UInt32)
  deriving DecidableEq, Repr

/-- An operation on the pools. -/
def PoolMgr.step (m : PoolMgr) (random : Random) (s : SpawnedPoolData) : Op → SpawnedPoolData
  | .spawnPool pool => m.spawnPool random pool s
  | .despawnPool pool => m.despawnPool pool s
  | .updatePool t pool guid => m.updatePool random t pool guid s

end TrinityCore.Pools
