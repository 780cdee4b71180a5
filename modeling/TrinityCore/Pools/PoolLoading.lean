import TrinityCore.Pools.PoolMgr

/-!
# Loading of pools

The tables that `PoolMgr::LoadFromDB` reads: the pools, their creatures and game objects, and
the pools that are members of other pools. A row is skipped when it names a pool that does not
exist, a chance out of range, a spawn on another map than the pool, or a pool inside itself.
-/

namespace TrinityCore.Pools

open Function List

/-- A row of `pool_members`. -/
structure PoolMember where
  spawnId : UInt32
  poolSpawnId : UInt32
  chance : Float32

/-- `PoolGroup::AddEntry`. -/
def PoolGroup.addEntry (group : PoolGroup) (poolitem : PoolObject) (maxentries : UInt32) :
    PoolGroup :=
  if poolitem.chance != 0 && maxentries == 1 then
    { group with explicitlyChanced := group.explicitlyChanced ++ [poolitem] }
  else { group with equalChanced := group.equalChanced ++ [poolitem] }

/-- The members of `PoolMgr` that loading fills. The keys of `mPoolTemplate` are `entries`. -/
structure Loading where
  entries : Finset UInt32 := ∅
  maxLimit : UInt32 → UInt32 := fun _ => 0
  mapId : UInt32 → Int := fun _ => -1
  groups : MemberType → UInt32 → PoolGroup := fun _ _ => {}
  searchMap : MemberType → UInt32 → Option UInt32 := fun _ _ => none

namespace Loading

variable (l : Loading)

def setMapId (pool : UInt32) (map : Int) : Loading :=
  { l with mapId := update l.mapId pool map }

def setGroup (t : MemberType) (pool : UInt32) (group : PoolGroup) : Loading :=
  { l with groups := update l.groups t (update (l.groups t) pool group) }

def setSearchMap (t : MemberType) (guid : UInt32) (pool : Option UInt32) : Loading :=
  { l with searchMap := update l.searchMap t (update (l.searchMap t) guid pool) }

/-- A row of `pool_template`. -/
def loadTemplate (row : UInt32 × UInt32) : Loading :=
  { l with
    entries := insert row.1 l.entries
    maxLimit := update l.maxLimit row.1 row.2
    mapId := update l.mapId row.1 (-1) }

/-- The member is put into its group and into the search map, which keeps an older entry. -/
def addMember (t : MemberType) (row : PoolMember) : Loading :=
  let l := l.setGroup t row.poolSpawnId
    ((l.groups t row.poolSpawnId).addEntry ⟨row.spawnId, row.chance.abs⟩
      (l.maxLimit row.poolSpawnId))
  if (l.searchMap t row.spawnId).isSome then l
  else l.setSearchMap t row.spawnId (some row.poolSpawnId)

/-- A row of a spawn, with the map of the spawn if there is one to be loaded. -/
def loadSpawn (t : MemberType) (mapOf : UInt32 → Option UInt16) (l : Loading)
    (row : PoolMember) : Loading :=
  match mapOf row.spawnId with
  | none => l
  | some map =>
    if row.poolSpawnId ∉ l.entries then l
    else if row.chance < 0 ∨ row.chance > 100 then l
    else
      let l := if l.mapId row.poolSpawnId = -1 then l.setMapId row.poolSpawnId map.toNat else l
      if l.mapId row.poolSpawnId ≠ map.toNat then l else l.addMember t row

/-- The rows of creatures, with `GetCreatureData`. -/
def loadCreatures (creatureData : UInt32 → Option UInt16) (l : Loading)
    (rows : List PoolMember) : Loading :=
  rows.foldl (loadSpawn .creature creatureData) l

def GAMEOBJECT_TYPE_CHEST : Nat := 3

def GAMEOBJECT_TYPE_GOOBER : Nat := 10

def GAMEOBJECT_TYPE_FISHINGHOLE : Nat := 25

/-- Only objects that can be looted are loaded. -/
def lootableMap (gameObjectData : UInt32 → Option (UInt16 × Nat)) (guid : UInt32) :
    Option UInt16 :=
  (gameObjectData guid).bind fun (map, type) =>
    if type ≠ GAMEOBJECT_TYPE_CHEST ∧ type ≠ GAMEOBJECT_TYPE_GOOBER ∧
        type ≠ GAMEOBJECT_TYPE_FISHINGHOLE then none
    else some map

/-- The rows of game objects, with the maps of `GetGameObjectData` and the types of their
templates. -/
def loadGameObjects (gameObjectData : UInt32 → Option (UInt16 × Nat)) (l : Loading)
    (rows : List PoolMember) : Loading :=
  rows.foldl (loadSpawn .gameobject (lootableMap gameObjectData)) l

/-- A row of a pool in a pool. -/
def loadPool (row : PoolMember) : Loading :=
  if row.poolSpawnId ∉ l.entries then l
  else if row.spawnId ∉ l.entries then l
  else if row.poolSpawnId = row.spawnId then l
  else if row.chance < 0 ∨ row.chance > 100 then l
  else l.addMember .pool row

def loadPools (rows : List PoolMember) : Loading := rows.foldl loadPool l

/-! ### Groups and search maps -/

end Loading

/-- The members' ids. -/
def PoolGroup.guids (group : PoolGroup) : List UInt32 := group.objects.map PoolObject.guid

theorem PoolGroup.perm_guids_addEntry (group : PoolGroup) (poolitem : PoolObject)
    (maxentries : UInt32) :
    (group.addEntry poolitem maxentries).guids.Perm (poolitem.guid :: group.guids) := by
  unfold PoolGroup.addEntry
  split
  · have hperm := perm_append_singleton poolitem group.objects
    simpa [guids, objects] using hperm.map PoolObject.guid
  · simp [guids, objects]

variable {load : Loading → PoolMember → Loading} {rows : List PoolMember}

variable (mapOf : UInt32 → Option UInt16)

namespace Loading

variable {l : Loading} {t t' : MemberType} {row : PoolMember}

theorem addMember_groups (l : Loading) (t t' : MemberType) (row : PoolMember) (pool : UInt32) :
    (l.addMember t row).groups t' pool =
      if t' = t ∧ pool = row.poolSpawnId then
        (l.groups t row.poolSpawnId).addEntry ⟨row.spawnId, row.chance.abs⟩
          (l.maxLimit row.poolSpawnId)
      else l.groups t' pool := by
  have hgroups : (l.addMember t row).groups = (l.setGroup t row.poolSpawnId
      ((l.groups t row.poolSpawnId).addEntry ⟨row.spawnId, row.chance.abs⟩
        (l.maxLimit row.poolSpawnId))).groups := by
    unfold addMember
    simp only
    split <;> rfl
  rw [hgroups]
  by_cases ht : t' = t
  · subst ht
    simp [setGroup, update_apply]
  · simp [setGroup, ht]

theorem addMember_searchMap (hnew : l.searchMap t row.spawnId = none) (guid : UInt32) :
    (l.addMember t row).searchMap t' guid =
      if t' = t ∧ guid = row.spawnId then some row.poolSpawnId else l.searchMap t' guid := by
  have hmap : (l.addMember t row).searchMap =
      (l.setSearchMap t row.spawnId (some row.poolSpawnId)).searchMap := by
    unfold addMember
    simp [setGroup, setSearchMap, hnew]
  rw [hmap]
  by_cases ht : t' = t
  · subst ht
    simp [setSearchMap, update_apply]
  · simp [setSearchMap, ht]

@[simp] theorem addMember_entries : (l.addMember t row).entries = l.entries := by
  unfold addMember
  simp only
  split <;> rfl

@[simp] theorem addMember_mapId : (l.addMember t row).mapId = l.mapId := by
  unfold addMember
  simp only
  split <;> rfl

/-- Every member of a type is in the group that the search map names, once. -/
structure Consistent (l : Loading) (t : MemberType) : Prop where
  mem_iff : ∀ pool guid, guid ∈ (l.groups t pool).guids ↔ l.searchMap t guid = some pool
  nodup : ∀ pool, (l.groups t pool).guids.Nodup

/-- A new member is consistent with the others. -/
theorem Consistent.addMember (h : l.Consistent t') (hnew : l.searchMap t row.spawnId = none) :
    (l.addMember t row).Consistent t' := by
  have hguids (pool : UInt32) : ((l.addMember t row).groups t' pool).guids.Perm
      (if t' = t ∧ pool = row.poolSpawnId then row.spawnId :: (l.groups t' pool).guids
        else (l.groups t' pool).guids) := by
    rw [addMember_groups]
    split
    · next hpool =>
      obtain ⟨rfl, rfl⟩ := hpool
      exact PoolGroup.perm_guids_addEntry _ _ _
    · exact List.Perm.refl _
  constructor
  · intro pool guid
    rw [(hguids pool).mem_iff, addMember_searchMap hnew]
    by_cases ht : t' = t
    · subst ht
      by_cases hguid : guid = row.spawnId
      · subst hguid
        have hnot : row.spawnId ∉ (l.groups t' pool).guids := by
          rw [h.mem_iff, hnew]
          simp
        by_cases hpool : pool = row.poolSpawnId
        · simp [hpool]
        · simp [hpool, hnot, Ne.symm hpool]
      · by_cases hpool : pool = row.poolSpawnId
        · simp [hpool, hguid, h.mem_iff]
        · simp [hpool, hguid, h.mem_iff]
    · simp [ht, h.mem_iff]
  · intro pool
    rw [(hguids pool).nodup_iff]
    split
    · next hpool =>
      obtain ⟨rfl, rfl⟩ := hpool
      have hnot : row.spawnId ∉ (l.groups t' row.poolSpawnId).guids := by
        rw [h.mem_iff, hnew]
        simp
      exact nodup_cons.mpr ⟨hnot, h.nodup _⟩
    · exact h.nodup pool

@[simp] theorem addMember_searchMap_of_ne (ht : t' ≠ t) :
    (l.addMember t row).searchMap t' = l.searchMap t' := by
  unfold addMember
  simp only
  split <;> simp [setGroup, setSearchMap, ht]

/-! ### One row -/

/-- Nothing but map ids is different. -/
def SameMembers (l l' : Loading) : Prop :=
  l'.entries = l.entries ∧ l'.groups = l.groups ∧ l'.searchMap = l.searchMap

/-- What a row does at most: its member is added. -/
def AddsAtMost (t : MemberType) (row : PoolMember) (l l' : Loading) : Prop :=
  l' = l ∨ ∃ l₁, SameMembers l l₁ ∧ l' = l₁.addMember t row

theorem Consistent.of_sameMembers {l' : Loading} (h : l.Consistent t)
    (hsame : SameMembers l l') : l'.Consistent t := by
  obtain ⟨-, hgroups, hsearch⟩ := hsame
  constructor
  · intro pool guid
    rw [hgroups, hsearch]
    exact h.mem_iff pool guid
  · intro pool
    rw [hgroups]
    exact h.nodup pool

theorem Consistent.of_addsAtMost {l' : Loading} (h : l.Consistent t')
    (hadds : AddsAtMost t row l l') (hnew : l.searchMap t row.spawnId = none) :
    l'.Consistent t' := by
  rcases hadds with rfl | ⟨l₁, hsame, rfl⟩
  · exact h
  · apply (h.of_sameMembers hsame).addMember
    rw [hsame.2.2]
    exact hnew

/-- Only the row's own member can be new in the search maps. -/
theorem AddsAtMost.searchMap {l' : Loading} (hadds : AddsAtMost t row l l')
    (hnew : l.searchMap t row.spawnId = none) {guid : UInt32}
    (hguid : t' ≠ t ∨ guid ≠ row.spawnId) : l'.searchMap t' guid = l.searchMap t' guid := by
  rcases hadds with rfl | ⟨l₁, hsame, rfl⟩
  · rfl
  · rw [addMember_searchMap (by rw [hsame.2.2]; exact hnew), hsame.2.2, if_neg]
    grind

/-- What every row keeps whose member is not in the search map yet, rows of different members
keep. -/
theorem foldl_keeps {P : Loading → Prop} (hload : ∀ l row, AddsAtMost t row l (load l row))
    (hstep : ∀ l row, l.searchMap t row.spawnId = none → P l → P (load l row))
    (hkey : (rows.map PoolMember.spawnId).Nodup)
    (hnew : ∀ row ∈ rows, l.searchMap t row.spawnId = none) (h : P l) : P (rows.foldl load l) := by
  induction rows generalizing l with
  | nil => exact h
  | cons row rows ih =>
    rw [map_cons, nodup_cons] at hkey
    rw [forall_mem_cons] at hnew
    apply ih hkey.2
    · intro later hlater
      have hne : later.spawnId ≠ row.spawnId := by
        intro heq
        exact hkey.1 (heq ▸ mem_map_of_mem hlater)
      rw [(hload l row).searchMap hnew.1 (Or.inr hne)]
      exact hnew.2 later hlater
    · exact hstep l row hnew.1 h

/-- The other search maps stay as they are. -/
theorem foldl_searchMap (hload : ∀ l row, AddsAtMost t row l (load l row)) (rows : List PoolMember)
    (ht : t' ≠ t) : (rows.foldl load l).searchMap t' = l.searchMap t' := by
  induction rows generalizing l with
  | nil => rfl
  | cons row rows ih =>
    rw [foldl_cons, ih]
    rcases hload l row with hsame | ⟨l₁, hsame, hadd⟩
    · rw [hsame]
    · rw [hadd, addMember_searchMap_of_ne ht, hsame.2.2]

/-! ### Maps and mothers -/

/-- A pool with spawns has a map. -/
def Mapped (l : Loading) : Prop :=
  ∀ t, t ≠ .pool → ∀ pool, (l.groups t pool).guids ≠ [] → l.mapId pool ≠ -1

/-- A pool in a pool is in the table of pools, and so is its mother. -/
def Linked (l : Loading) : Prop :=
  ∀ child mother, l.searchMap .pool child = some mother → child ∈ l.entries ∧ mother ∈ l.entries

theorem Mapped.addMember (h : l.Mapped) (hmap : t = .pool ∨ l.mapId row.poolSpawnId ≠ -1) :
    (l.addMember t row).Mapped := by
  intro t' ht' pool hguids
  rw [addMember_groups] at hguids
  rw [addMember_mapId]
  split at hguids
  · next hpool =>
    obtain ⟨rfl, rfl⟩ := hpool
    exact hmap.resolve_left ht'
  · exact h t' ht' pool hguids

theorem Mapped.setMapId (h : l.Mapped) (pool : UInt32) {map : Int} (hmap : map ≠ -1) :
    (l.setMapId pool map).Mapped := by
  intro t ht other hguids
  simp only [Loading.setMapId, update_apply]
  split
  · exact hmap
  · exact h t ht other hguids

/-- What a row of a pool in a pool does: nothing, or a member that is linked. -/
theorem loadPool_cases (l : Loading) (row : PoolMember) :
    l.loadPool row = l ∨
      (l.loadPool row = l.addMember .pool row ∧ row.spawnId ∈ l.entries ∧
        row.poolSpawnId ∈ l.entries) := by
  unfold loadPool
  grind

theorem loadPool_addsAtMost (l : Loading) (row : PoolMember) :
    AddsAtMost .pool row l (l.loadPool row) := by
  rcases loadPool_cases l row with hsame | ⟨hadd, -⟩
  · exact .inl hsame
  · exact .inr ⟨l, ⟨rfl, rfl, rfl⟩, hadd⟩

/-- What a row of a spawn does: nothing, or a member of a pool with a map. -/
theorem loadSpawn_cases (l : Loading) (row : PoolMember) :
    l.loadSpawn t mapOf row = l ∨
      ∃ map : UInt16, (l.mapId row.poolSpawnId = -1 ∧
          l.loadSpawn t mapOf row = (l.setMapId row.poolSpawnId map.toNat).addMember t row) ∨
        (l.mapId row.poolSpawnId = map.toNat ∧ l.loadSpawn t mapOf row = l.addMember t row) := by
  unfold loadSpawn
  cases mapOf row.spawnId with
  | none => exact .inl rfl
  | some map =>
    by_cases hentry : row.poolSpawnId ∉ l.entries
    · exact .inl (if_pos hentry)
    · by_cases hchance : row.chance < 0 ∨ row.chance > 100
      · left
        simp only [if_neg hentry, if_pos hchance]
      · simp only [if_neg hentry, if_neg hchance]
        by_cases hnone : l.mapId row.poolSpawnId = -1
        · right
          refine ⟨map, .inl ⟨hnone, ?_⟩⟩
          simp [hnone, setMapId]
        · by_cases hmap : l.mapId row.poolSpawnId = map.toNat
          · right
            refine ⟨map, .inr ⟨hmap, ?_⟩⟩
            simp [hmap]
          · left
            simp [hnone, hmap]

theorem loadSpawn_addsAtMost (l : Loading) (row : PoolMember) :
    AddsAtMost t row l (l.loadSpawn t mapOf row) := by
  rcases loadSpawn_cases mapOf l row with hsame | ⟨map, ⟨-, hadd⟩ | ⟨-, hadd⟩⟩
  · exact .inl hsame
  · exact .inr ⟨l.setMapId row.poolSpawnId map.toNat, ⟨rfl, rfl, rfl⟩, hadd⟩
  · exact .inr ⟨l, ⟨rfl, rfl, rfl⟩, hadd⟩

theorem Mapped.loadSpawn (h : l.Mapped) (t : MemberType) (mapOf : UInt32 → Option UInt16)
    (row : PoolMember) : (l.loadSpawn t mapOf row).Mapped := by
  rcases loadSpawn_cases mapOf l row with hsame | ⟨map, ⟨-, hadd⟩ | ⟨hmap, hadd⟩⟩
  · rw [hsame]
    exact h
  · rw [hadd]
    have hne : (map.toNat : Int) ≠ -1 := by omega
    apply (h.setMapId _ hne).addMember
    right
    simp [Loading.setMapId]
  · rw [hadd]
    apply h.addMember
    right
    omega

theorem Mapped.loadPool (h : l.Mapped) (row : PoolMember) : (l.loadPool row).Mapped := by
  rcases loadPool_cases l row with hsame | ⟨hadd, -⟩
  · rw [hsame]
    exact h
  · rw [hadd]
    exact h.addMember (.inl rfl)

theorem Linked.loadPool (h : l.Linked) (row : PoolMember)
    (hnew : l.searchMap .pool row.spawnId = none) : (l.loadPool row).Linked := by
  rcases loadPool_cases l row with hsame | ⟨hadd, hchild, hmother⟩
  · rw [hsame]
    exact h
  · intro child mother hlink
    rw [hadd, addMember_searchMap hnew] at hlink
    rw [hadd, addMember_entries]
    split at hlink
    · next hown =>
      cases hlink
      exact ⟨hown.2 ▸ hchild, hmother⟩
    · exact h child mother hlink

/-- What is there before the pools in pools are loaded: maps of the pools with spawns, and no pool
in another one. -/
structure SpawnsLoaded (l : Loading) : Prop where
  mapped : l.Mapped
  no_mother : ∀ child, l.searchMap .pool child = none
  no_children : ∀ pool, (l.groups .pool pool).guids = []

theorem SpawnsLoaded.consistent_loadPools (h : l.SpawnsLoaded)
    (hkey : (rows.map PoolMember.spawnId).Nodup) (hconsistent : l.Consistent t) :
    (l.loadPools rows).Consistent t := by
  apply foldl_keeps (P := fun l => l.Consistent t) loadPool_addsAtMost ?_ hkey
    (fun row _ => h.no_mother row.spawnId) hconsistent
  intro l row hnew hl
  exact hl.of_addsAtMost (loadPool_addsAtMost l row) hnew

/-- Pools in pools are consistent and linked, and the pools with spawns keep their maps. -/
theorem SpawnsLoaded.loadPools (h : l.SpawnsLoaded) (hkey : (rows.map PoolMember.spawnId).Nodup) :
    (l.loadPools rows).Mapped ∧ (l.loadPools rows).Linked ∧
      (l.loadPools rows).Consistent .pool := by
  have hlinked : l.Linked := by
    intro child mother hlink
    rw [h.no_mother] at hlink
    cases hlink
  have hconsistent : l.Consistent .pool := by
    constructor
    · intro pool guid
      simp [h.no_mother, h.no_children]
    · intro pool
      simp [h.no_children]
  have hkeeps : (l.loadPools rows).Mapped ∧ (l.loadPools rows).Linked := by
    apply foldl_keeps (P := fun l => l.Mapped ∧ l.Linked) loadPool_addsAtMost
      ?_ hkey (fun row _ => h.no_mother row.spawnId) ⟨h.mapped, hlinked⟩
    intro l row hnew hl
    exact ⟨hl.1.loadPool row, hl.2.loadPool row hnew⟩
  exact ⟨hkeeps.1, hkeeps.2, h.consistent_loadPools hkey hconsistent⟩

@[simp] theorem loadPool_entries : (l.loadPool row).entries = l.entries := by
  rcases loadPool_cases l row with hsame | ⟨hadd, -⟩
  · rw [hsame]
  · rw [hadd, addMember_entries]

@[simp] theorem loadPools_entries (l : Loading) (rows : List PoolMember) :
    (l.loadPools rows).entries = l.entries := by
  unfold loadPools
  induction rows generalizing l with
  | nil => rfl
  | cons row rows ih => rw [foldl_cons, ih, loadPool_entries]

/-- What is loaded before the pools in pools: the table of pools, the creatures and the game
objects. -/
def loadSpawns (creatureData : UInt32 → Option UInt16)
    (gameObjectData : UInt32 → Option (UInt16 × Nat)) (templates : List (UInt32 × UInt32))
    (creatures gameObjects : List PoolMember) : Loading :=
  loadGameObjects gameObjectData
    (loadCreatures creatureData (templates.foldl loadTemplate {}) creatures) gameObjects

theorem foldl_loadTemplate (templates : List (UInt32 × UInt32)) (l : Loading) :
    (templates.foldl loadTemplate l).groups = l.groups ∧
      (templates.foldl loadTemplate l).searchMap = l.searchMap := by
  induction templates generalizing l with
  | nil => exact ⟨rfl, rfl⟩
  | cons row templates ih => exact ih (l.loadTemplate row)

/-- Rows of spawns keep what is consistent, and the pools with spawns have their maps. -/
theorem foldl_loadSpawn_spec (hnew : ∀ guid, l.searchMap t guid = none) (hmapped : l.Mapped)
    (hconsistent : ∀ t, l.Consistent t) (hkey : (rows.map PoolMember.spawnId).Nodup) :
    (rows.foldl (loadSpawn t mapOf) l).Mapped ∧
      ∀ t', (rows.foldl (loadSpawn t mapOf) l).Consistent t' := by
  apply foldl_keeps (P := fun l => l.Mapped ∧ ∀ t', l.Consistent t') (loadSpawn_addsAtMost mapOf)
    ?_ hkey (fun row _ => hnew row.spawnId) ⟨hmapped, hconsistent⟩
  intro l row hrow hl
  exact ⟨hl.1.loadSpawn t mapOf row,
    fun t' => (hl.2 t').of_addsAtMost (loadSpawn_addsAtMost mapOf l row) hrow⟩

/-- The tables that are read first leave what the pools in pools are loaded into. -/
theorem loadSpawns_spec (creatureData : UInt32 → Option UInt16)
    (gameObjectData : UInt32 → Option (UInt16 × Nat)) (templates : List (UInt32 × UInt32))
    {creatures gameObjects : List PoolMember}
    (hcreatures : (creatures.map PoolMember.spawnId).Nodup)
    (hgameObjects : (gameObjects.map PoolMember.spawnId).Nodup) :
    (loadSpawns creatureData gameObjectData templates creatures gameObjects).SpawnsLoaded ∧
      ∀ t, (loadSpawns creatureData gameObjectData templates creatures gameObjects).Consistent t :=
    by
  have htemplates := foldl_loadTemplate templates {}
  have hempty : (templates.foldl loadTemplate {}).Mapped ∧
      ∀ t, (templates.foldl loadTemplate {}).Consistent t := by
    constructor
    · intro t _ pool hguids
      rw [htemplates.1] at hguids
      exact absurd rfl hguids
    · intro t
      constructor
      · intro pool guid
        rw [htemplates.1, htemplates.2]
        simp [PoolGroup.guids, PoolGroup.objects]
      · intro pool
        rw [htemplates.1]
        exact nodup_nil
  have hcreature := foldl_loadSpawn_spec creatureData (t := .creature)
    (by simp [htemplates.2]) hempty.1 hempty.2 hcreatures
  have hother (t : MemberType) (ht : t ≠ .creature) (guid : UInt32) :
      (loadCreatures creatureData (templates.foldl loadTemplate {}) creatures).searchMap t guid =
        none := by
    unfold loadCreatures
    rw [foldl_searchMap (loadSpawn_addsAtMost creatureData) creatures ht, htemplates.2]
  have hgameObject := foldl_loadSpawn_spec (lootableMap gameObjectData)
    (hother .gameobject (by decide)) hcreature.1 hcreature.2 hgameObjects
  have hnone (child : UInt32) :
      (loadSpawns creatureData gameObjectData templates creatures gameObjects).searchMap .pool
        child = none := by
    have hpool : MemberType.pool ≠ .gameobject := by decide
    unfold loadSpawns loadGameObjects
    rw [foldl_searchMap (loadSpawn_addsAtMost _) gameObjects hpool]
    exact hother .pool (by decide) child
  refine ⟨⟨hgameObject.1, hnone, fun pool => ?_⟩, hgameObject.2⟩
  apply eq_nil_iff_forall_not_mem.mpr
  intro guid hguid
  have hmother := ((hgameObject.2 .pool).mem_iff pool guid).mp hguid
  have hsearch := hnone guid
  rw [loadSpawns, loadGameObjects, hmother] at hsearch
  cases hsearch

end Loading
end TrinityCore.Pools
