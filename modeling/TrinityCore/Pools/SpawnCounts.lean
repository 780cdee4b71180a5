import Mathlib.Data.List.Perm.Basic
import TrinityCore.Lib.StateMachine
import TrinityCore.Pools.PoolMgr

/-!
# The spawn counts of pools

The counter of a pool is the number of its members that are spawned. Marking and unmarking one
member keep that; the spawning and despawning of a whole pool, with its child pools, change
nothing of the members of pools above it, so the loops over the members of a pool see their
marks change by what they do themselves.
-/

namespace TrinityCore.Pools

open List

variable {m : PoolMgr} {random : Random} {s s' s'' : SpawnedPoolData} {t : MemberType}
  {guid pool : UInt32}

namespace PoolMgr

/-- The members of a type that a pool lists. -/
def members (m : PoolMgr) (t : MemberType) (pool : UInt32) : List UInt32 :=
  (m.groups t pool).objects.map PoolObject.guid

/-- How many members of a pool, of all types, are marked spawned. -/
def numSpawned (m : PoolMgr) (s : SpawnedPoolData) (pool : UInt32) : Nat :=
  (m.members .creature pool).countP (s.isSpawnedObject .creature)
    + (m.members .gameobject pool).countP (s.isSpawnedObject .gameobject)
    + (m.members .pool pool).countP (s.isSpawnedObject .pool)

/-- Every counter is exact. -/
def Exact (m : PoolMgr) (s : SpawnedPoolData) : Prop :=
  ∀ pool, s.getSpawnedObjects pool = m.numSpawned s pool

theorem mem_members : guid ∈ m.members t pool ↔ m.searchMap t guid = some pool := by
  constructor
  · intro h
    obtain ⟨obj, hobj, rfl⟩ := mem_map.mp h
    exact m.searchMap_of_mem t pool obj hobj
  · exact m.mem_of_searchMap t guid pool

/-- The marks of the members of a pool are the same. -/
def SameMarks (m : PoolMgr) (s s' : SpawnedPoolData) (pool : UInt32) : Prop :=
  ∀ t, ∀ guid ∈ m.members t pool, s'.isSpawnedObject t guid = s.isSpawnedObject t guid

theorem SameMarks.refl (s : SpawnedPoolData) (pool : UInt32) : m.SameMarks s s pool :=
  fun _ _ _ => rfl

theorem SameMarks.trans (h : m.SameMarks s s' pool) (h' : m.SameMarks s' s'' pool) :
    m.SameMarks s s'' pool := fun t guid hguid => (h' t guid hguid).trans (h t guid hguid)

theorem SameMarks.numSpawned_eq (h : m.SameMarks s s' pool) :
    m.numSpawned s' pool = m.numSpawned s pool := by
  have hall : ∀ t, (m.members t pool).countP (s'.isSpawnedObject t) =
      (m.members t pool).countP (s.isSpawnedObject t) := by
    intro t
    refine countP_congr fun guid hguid => ?_
    rw [h t guid hguid]
  unfold numSpawned
  rw [hall, hall, hall]

/-- Among the members of a pool, the mark of one becomes `b`, and no other changes. -/
def Flips (m : PoolMgr) (s s' : SpawnedPoolData) (pool : UInt32) (t : MemberType) (guid : UInt32)
    (b : Bool) : Prop :=
  ∀ t', ∀ guid' ∈ m.members t' pool,
    s'.isSpawnedObject t' guid' = if t' = t ∧ guid' = guid then b else s.isSpawnedObject t' guid'

/-- The mark of a member of one pool is not one of another pool. -/
theorem Flips.sameMarks {b : Bool} (h : m.Flips s s' pool t guid b)
    (hguid : guid ∉ m.members t pool) : m.SameMarks s s' pool := by
  intro t' guid' hguid'
  rw [h t' guid' hguid', if_neg]
  rintro ⟨rfl, rfl⟩
  exact hguid hguid'

/-- Setting one of a list's marks counts it. -/
theorem countP_flip {l : List UInt32} (hl : l.Nodup) {p q : UInt32 → Bool} (hguid : guid ∈ l)
    (hp : p guid = false) (hq : q guid = true) (hrest : ∀ x ∈ l, x ≠ guid → q x = p x) :
    l.countP q = l.countP p + 1 := by
  have hperm : l.Perm (guid :: l.erase guid) := perm_cons_erase hguid
  have herase : (l.erase guid).countP q = (l.erase guid).countP p := by
    refine countP_congr fun x hx => ?_
    obtain ⟨hne, hmem⟩ := hl.mem_erase_iff.mp hx
    rw [hrest x hmem hne]
  rw [hperm.countP_eq, hperm.countP_eq p, countP_cons_of_pos hq,
    countP_cons_of_neg (by simp [hp]), herase]

/-- A new mark counts for the pool of the member. -/
theorem Flips.numSpawned_eq (h : m.Flips s s' pool t guid true)
    (hguid : guid ∈ m.members t pool) (hunmarked : s.isSpawnedObject t guid = false) :
    m.numSpawned s' pool = m.numSpawned s pool + 1 := by
  have hother : ∀ t', t' ≠ t → (m.members t' pool).countP (s'.isSpawnedObject t') =
      (m.members t' pool).countP (s.isSpawnedObject t') := by
    intro t' ht'
    refine countP_congr fun x hx => ?_
    rw [h t' x hx, if_neg fun hand => ht' hand.1]
  have hthis : (m.members t pool).countP (s'.isSpawnedObject t) =
      (m.members t pool).countP (s.isSpawnedObject t) + 1 := by
    refine countP_flip (m.nodup t pool) hguid hunmarked ?_ fun x hx hne => ?_
    · rw [h t guid hguid, if_pos ⟨rfl, rfl⟩]
    · rw [h t x hx, if_neg fun hand => hne hand.2]
  unfold numSpawned
  cases t with
  | creature =>
    rw [hthis, hother .gameobject nofun, hother .pool nofun]
    omega
  | gameobject =>
    rw [hthis, hother .creature nofun, hother .pool nofun]
    omega
  | pool =>
    rw [hthis, hother .creature nofun, hother .gameobject nofun]
    omega

/-- Undoing the change of a mark changes it back. -/
theorem Flips.symm {b b' : Bool} (h : m.Flips s s' pool t guid b)
    (hguid : s.isSpawnedObject t guid = b') : m.Flips s' s pool t guid b' := by
  intro t' guid' hguid'
  rw [h t' guid' hguid']
  split
  · next hand => rw [hand.1, hand.2, hguid]
  · rfl

/-- Members of a pool may be spawned: it is marked, or no other pool counts its mark. -/
def Ready (m : PoolMgr) (s : SpawnedPoolData) (pool : UInt32) : Prop :=
  m.searchMap .pool pool = none ∨ s.isSpawnedObject .pool pool = true

theorem ne_of_member (h : m.searchMap .pool guid = some pool) : guid ≠ pool := by
  intro heq
  have hlt : m.rank guid < m.rank pool := m.rank_lt guid pool h
  rw [heq] at hlt
  omega

end PoolMgr

/-! ### One member -/

namespace SpawnedPoolData

theorem isSpawnedObject_pool : s.isSpawnedObject .pool pool = (s.spawnedPools.lookup pool).isSome :=
  rfl

/-- A pool that is not marked has no spawned members. -/
theorem getSpawnedObjects_of_not_spawned (h : s.isSpawnedObject .pool pool = false) :
    s.getSpawnedObjects pool = 0 := by
  unfold getSpawnedObjects
  rw [isSpawnedObject_pool, Option.isSome_eq_false_iff, Option.isNone_iff_eq_none] at h
  rw [h]
  rfl

/-- The counter of a pool is set. -/
def setCount (s : SpawnedPoolData) (pool : UInt32) (count : Nat) : SpawnedPoolData :=
  { s with spawnedPools := s.spawnedPools.insert pool count }

/-- The mark of a member is set or taken; a pool is marked with no spawned members. -/
def setMark (s : SpawnedPoolData) (guid : UInt32) : MemberType → Bool → SpawnedPoolData
  | .creature, true => { s with spawnedCreatures := insert guid s.spawnedCreatures }
  | .creature, false => { s with spawnedCreatures := s.spawnedCreatures.erase guid }
  | .gameobject, true => { s with spawnedGameobjects := insert guid s.spawnedGameobjects }
  | .gameobject, false => { s with spawnedGameobjects := s.spawnedGameobjects.erase guid }
  | .pool, true => s.setCount guid 0
  | .pool, false => { s with spawnedPools := s.spawnedPools.erase guid }

theorem addSpawn_eq : s.addSpawn t guid pool =
    (s.setMark guid t true).setCount pool ((s.setMark guid t true).getSpawnedObjects pool + 1) := by
  cases t <;> rfl

theorem removeSpawn_eq : s.removeSpawn t guid pool =
    (s.setMark guid t false).setCount pool
      ((s.setMark guid t false).getSpawnedObjects pool - 1) := by
  cases t <;> rfl

theorem isSpawnedObject_setCount (count : Nat) (t' : MemberType) (guid' : UInt32) :
    (s.setCount pool count).isSpawnedObject t' guid' =
      if t' = .pool ∧ guid' = pool then true else s.isSpawnedObject t' guid' := by
  cases t' with
  | pool =>
    show ((s.spawnedPools.insert pool _).lookup guid').isSome = _
    rw [CountedMap.lookup_insert_if, apply_ite Option.isSome]
    simp [isSpawnedObject_pool]
  | creature =>
    rw [if_neg fun hand => nomatch hand.1]
    rfl
  | gameobject =>
    rw [if_neg fun hand => nomatch hand.1]
    rfl

theorem getSpawnedObjects_setCount (count : Nat) (other : UInt32) :
    (s.setCount pool count).getSpawnedObjects other =
      if other = pool then count else s.getSpawnedObjects other := by
  show ((s.spawnedPools.insert pool _).lookup other).getD 0 = _
  rw [CountedMap.lookup_insert_if, apply_ite (Option.getD · 0)]
  rfl

theorem isSpawnedObject_setMark (marked : Bool) (t' : MemberType) (guid' : UInt32) :
    (s.setMark guid t marked).isSpawnedObject t' guid' =
      if t' = t ∧ guid' = guid then marked else s.isSpawnedObject t' guid' := by
  by_cases ht : t' = t
  · subst ht
    cases t' with
    | creature => cases marked <;> by_cases h : guid' = guid <;> simp [setMark, isSpawnedObject, h]
    | gameobject =>
      cases marked <;> by_cases h : guid' = guid <;> simp [setMark, isSpawnedObject, h]
    | pool =>
      cases marked with
      | true => rw [setMark, isSpawnedObject_setCount]
      | false =>
        show ((s.spawnedPools.erase guid).lookup guid').isSome = _
        rw [CountedMap.lookup_erase_if, apply_ite Option.isSome]
        simp [isSpawnedObject_pool]
  · rw [if_neg fun hand => ht hand.1]
    cases t <;> cases t' <;> cases marked <;> first | rfl | exact absurd rfl ht

theorem getSpawnedObjects_setMark (marked : Bool) (other : UInt32) :
    (s.setMark guid t marked).getSpawnedObjects other =
      if t = .pool ∧ other = guid then 0 else s.getSpawnedObjects other := by
  cases t with
  | creature => cases marked <;> simp [setMark, getSpawnedObjects]
  | gameobject => cases marked <;> simp [setMark, getSpawnedObjects]
  | pool =>
    cases marked with
    | true =>
      rw [setMark, getSpawnedObjects_setCount]
      simp
    | false =>
      show ((s.spawnedPools.erase guid).lookup other).getD 0 = _
      rw [CountedMap.lookup_erase_if, apply_ite (Option.getD · 0)]
      simp [getSpawnedObjects]

/-- `AddSpawn` marks the member, and its pool. -/
theorem isSpawnedObject_addSpawn (t' : MemberType) (guid' : UInt32) :
    (s.addSpawn t guid pool).isSpawnedObject t' guid' =
      if t' = .pool ∧ guid' = pool then true
      else if t' = t ∧ guid' = guid then true else s.isSpawnedObject t' guid' := by
  rw [addSpawn_eq, isSpawnedObject_setCount, isSpawnedObject_setMark]

/-- `RemoveSpawn` takes the mark of the member, and leaves its pool marked. -/
theorem isSpawnedObject_removeSpawn (t' : MemberType) (guid' : UInt32) :
    (s.removeSpawn t guid pool).isSpawnedObject t' guid' =
      if t' = .pool ∧ guid' = pool then true
      else if t' = t ∧ guid' = guid then false else s.isSpawnedObject t' guid' := by
  rw [removeSpawn_eq, isSpawnedObject_setCount, isSpawnedObject_setMark]

/-- The counters after `AddSpawn`. -/
theorem getSpawnedObjects_addSpawn (hne : t = .pool → guid ≠ pool) (other : UInt32) :
    (s.addSpawn t guid pool).getSpawnedObjects other =
      if other = pool then s.getSpawnedObjects pool + 1
      else if t = .pool ∧ other = guid then 0 else s.getSpawnedObjects other := by
  have hpool : ¬(t = .pool ∧ pool = guid) := fun hand => hne hand.1 hand.2.symm
  rw [addSpawn_eq, getSpawnedObjects_setCount, getSpawnedObjects_setMark,
    getSpawnedObjects_setMark, if_neg hpool]

/-- The counters after `RemoveSpawn`. -/
theorem getSpawnedObjects_removeSpawn (hne : t = .pool → guid ≠ pool) (other : UInt32) :
    (s.removeSpawn t guid pool).getSpawnedObjects other =
      if other = pool then s.getSpawnedObjects pool - 1
      else if t = .pool ∧ other = guid then 0 else s.getSpawnedObjects other := by
  have hpool : ¬(t = .pool ∧ pool = guid) := fun hand => hne hand.1 hand.2.symm
  rw [removeSpawn_eq, getSpawnedObjects_setCount, getSpawnedObjects_setMark,
    getSpawnedObjects_setMark, if_neg hpool]

end SpawnedPoolData

namespace PoolMgr

open SpawnedPoolData

theorem ne_pool_of_mem_members (hguid : guid ∈ m.members t pool) : t = .pool → guid ≠ pool := by
  rintro rfl
  exact ne_of_member (mem_members.mp hguid)

/-- A member of one pool is not one of another. -/
theorem not_mem_members (hguid : guid ∈ m.members t pool) {other : UInt32} (hne : other ≠ pool) :
    guid ∉ m.members t other := by
  intro hother
  have heq : some pool = some other := (mem_members.mp hguid).symm.trans (mem_members.mp hother)
  exact hne (Option.some.inj heq).symm

/-- Marking a member of a pool that is ready changes no other mark of a member. -/
theorem flips_addSpawn (hready : m.Ready s pool) (other : UInt32) :
    m.Flips s (s.addSpawn t guid pool) other t guid true := by
  intro t' guid' hguid'
  rw [isSpawnedObject_addSpawn]
  by_cases hpool : t' = .pool ∧ guid' = pool
  · rw [if_pos hpool]
    obtain ⟨rfl, rfl⟩ := hpool
    cases hready with
    | inl htop => exact nomatch htop.symm.trans (mem_members.mp hguid')
    | inr hmarked => rw [hmarked, ite_self]
  · rw [if_neg hpool]

/-- Marking a member keeps the counters exact. -/
theorem exact_addSpawn (hexact : m.Exact s) (hready : m.Ready s pool)
    (hguid : guid ∈ m.members t pool) (hunmarked : s.isSpawnedObject t guid = false) :
    m.Exact (s.addSpawn t guid pool) := by
  intro other
  rw [getSpawnedObjects_addSpawn (ne_pool_of_mem_members hguid)]
  by_cases hother : other = pool
  · subst hother
    rw [if_pos rfl, hexact, (flips_addSpawn hready other).numSpawned_eq hguid hunmarked]
  · have hsame : m.SameMarks s (s.addSpawn t guid pool) other :=
      (flips_addSpawn hready other).sameMarks (not_mem_members hguid hother)
    rw [if_neg hother, hsame.numSpawned_eq, ← hexact]
    split
    · next hand =>
      obtain ⟨rfl, rfl⟩ := hand
      exact (getSpawnedObjects_of_not_spawned hunmarked).symm
    · rfl

/-- A pool with a marked member is marked. -/
theorem Exact.isSpawnedObject_pool (hexact : m.Exact s) (hguid : guid ∈ m.members t pool)
    (hmarked : s.isSpawnedObject t guid = true) : s.isSpawnedObject .pool pool = true := by
  by_contra hnot
  have hzero : m.numSpawned s pool = 0 := by
    rw [← hexact, getSpawnedObjects_of_not_spawned (Bool.eq_false_iff.mpr hnot)]
  have hpos : 0 < (m.members t pool).countP (s.isSpawnedObject t) :=
    countP_pos_iff.mpr ⟨guid, hguid, hmarked⟩
  unfold numSpawned at hzero
  cases t <;> omega

/-- Taking the mark of a member changes no other mark of a member. -/
theorem flips_removeSpawn (hexact : m.Exact s) (hguid : guid ∈ m.members t pool)
    (hmarked : s.isSpawnedObject t guid = true) (other : UInt32) :
    m.Flips s (s.removeSpawn t guid pool) other t guid false := by
  intro t' guid' _
  rw [isSpawnedObject_removeSpawn]
  by_cases hpool : t' = .pool ∧ guid' = pool
  · rw [if_pos hpool]
    obtain ⟨rfl, rfl⟩ := hpool
    have hne : ¬(.pool = t ∧ guid' = guid) := by
      rintro ⟨rfl, rfl⟩
      exact ne_pool_of_mem_members hguid rfl rfl
    rw [if_neg hne, hexact.isSpawnedObject_pool hguid hmarked]
  · rw [if_neg hpool]

/-- Taking the mark of a member keeps the counters exact; no member of a child pool may be left. -/
theorem exact_removeSpawn (hexact : m.Exact s) (hguid : guid ∈ m.members t pool)
    (hmarked : s.isSpawnedObject t guid = true) (hnone : t = .pool → m.numSpawned s guid = 0) :
    m.Exact (s.removeSpawn t guid pool) := by
  intro other
  rw [getSpawnedObjects_removeSpawn (ne_pool_of_mem_members hguid)]
  by_cases hother : other = pool
  · subst hother
    have hflips : m.Flips s (s.removeSpawn t guid other) other t guid false :=
      flips_removeSpawn hexact hguid hmarked other
    have hunmarked : (s.removeSpawn t guid other).isSpawnedObject t guid = false := by
      rw [hflips t guid hguid, if_pos ⟨rfl, rfl⟩]
    have hone := (hflips.symm hmarked).numSpawned_eq hguid hunmarked
    rw [if_pos rfl, hexact, hone]
    omega
  · have hsame : m.SameMarks s (s.removeSpawn t guid pool) other :=
      (flips_removeSpawn hexact hguid hmarked other).sameMarks (not_mem_members hguid hother)
    rw [if_neg hother, hsame.numSpawned_eq]
    split
    · next hand =>
      obtain ⟨rfl, rfl⟩ := hand
      exact (hnone rfl).symm
    · exact hexact other

/-! ### Despawning -/

/-- Members are only despawned, those of pools from a rank on not at all, and the counters
stay exact. -/
structure Shrinks (m : PoolMgr) (n : Nat) (s s' : SpawnedPoolData) : Prop where
  exact : m.Exact s'
  above : ∀ pool, n ≤ m.rank pool → m.SameMarks s s' pool
  le : ∀ pool, m.numSpawned s' pool ≤ m.numSpawned s pool

theorem Shrinks.refl (hexact : m.Exact s) (n : Nat) : m.Shrinks n s s :=
  ⟨hexact, fun pool _ => SameMarks.refl s pool, fun _ => le_refl _⟩

theorem Shrinks.trans {n : Nat} (h : m.Shrinks n s s') (h' : m.Shrinks n s' s'') :
    m.Shrinks n s s'' where
  exact := h'.exact
  above := fun pool hpool => (h.above pool hpool).trans (h'.above pool hpool)
  le := fun pool => le_trans (h'.le pool) (h.le pool)

theorem Shrinks.mono {n n' : Nat} (h : m.Shrinks n s s') (hle : n ≤ n') : m.Shrinks n' s s' where
  exact := h.exact
  above := fun pool hpool => h.above pool (le_trans hle hpool)
  le := h.le

/-- What `Despawn1Object` does to a spawned member of a pool. -/
def Despawns (m : PoolMgr) (t : MemberType) (pool : UInt32)
    (despawn1 : UInt32 → SpawnedPoolData → SpawnedPoolData) : Prop :=
  ∀ guid ∈ m.members t pool, ∀ s, m.Exact s → s.isSpawnedObject t guid = true →
    m.Shrinks (m.rank pool) s (despawn1 guid s) ∧
      (t = .pool → m.numSpawned (despawn1 guid s) guid = 0)

variable {despawn1 : UInt32 → SpawnedPoolData → SpawnedPoolData}

/-- Taking the mark of a member is a way to shrink. -/
theorem shrinks_removeSpawn (hexact : m.Exact s) (hguid : guid ∈ m.members t pool)
    (hmarked : s.isSpawnedObject t guid = true) (hnone : t = .pool → m.numSpawned s guid = 0) :
    m.Shrinks (m.rank pool + 1) s (s.removeSpawn t guid pool) := by
  have hflips : ∀ other, m.Flips s (s.removeSpawn t guid pool) other t guid false :=
    flips_removeSpawn hexact hguid hmarked
  have hsame : ∀ other, other ≠ pool → m.SameMarks s (s.removeSpawn t guid pool) other :=
    fun other hother => (hflips other).sameMarks (not_mem_members hguid hother)
  refine ⟨exact_removeSpawn hexact hguid hmarked hnone, fun other hrank => ?_, fun other => ?_⟩
  · refine hsame other ?_
    rintro rfl
    omega
  · by_cases hother : other = pool
    · subst hother
      have hunmarked : (s.removeSpawn t guid other).isSpawnedObject t guid = false := by
        rw [hflips other t guid hguid, if_pos ⟨rfl, rfl⟩]
      have hone := ((hflips other).symm hmarked).numSpawned_eq hguid hunmarked
      omega
    · exact (hsame other hother).numSpawned_eq.le

section

variable (hdespawn : m.Despawns t pool despawn1)
include hdespawn

/-- A round of `DespawnObject` takes the mark of its member, if it is asked for. -/
theorem despawnIfSpawned_spec {wanted : UInt32}
    {obj : PoolObject} (hobj : obj.guid ∈ m.members t pool) (hexact : m.Exact s) :
    m.Shrinks (m.rank pool + 1) s (despawnIfSpawned t despawn1 pool wanted s obj) ∧
      ∀ t', ∀ guid ∈ m.members t' pool,
        (despawnIfSpawned t despawn1 pool wanted s obj).isSpawnedObject t' guid =
          if t' = t ∧ guid = obj.guid ∧ (wanted = 0 ∨ guid = wanted) then false
          else s.isSpawnedObject t' guid := by
  unfold despawnIfSpawned
  by_cases hmarked : s.isSpawnedObject t obj.guid = true
  · rw [if_pos hmarked]
    by_cases hwanted : wanted = 0 ∨ obj.guid = wanted
    · rw [if_pos hwanted]
      obtain ⟨hinner, hnone⟩ := hdespawn obj.guid hobj s hexact hmarked
      have hstill : (despawn1 obj.guid s).isSpawnedObject t obj.guid = true := by
        rw [hinner.above pool le_rfl t obj.guid hobj, hmarked]
      refine ⟨(hinner.mono (Nat.le_succ _)).trans
        (shrinks_removeSpawn hinner.exact hobj hstill hnone), fun t' guid hguid => ?_⟩
      rw [flips_removeSpawn hinner.exact hobj hstill pool t' guid hguid,
        hinner.above pool le_rfl t' guid hguid]
      by_cases hthis : t' = t ∧ guid = obj.guid
      · rw [if_pos hthis, if_pos ⟨hthis.1, hthis.2, hthis.2 ▸ hwanted⟩]
      · rw [if_neg hthis, if_neg fun hand => hthis ⟨hand.1, hand.2.1⟩]
    · rw [if_neg hwanted]
      refine ⟨Shrinks.refl hexact _, fun t' guid _ => (if_neg ?_).symm⟩
      rintro ⟨-, rfl, hand⟩
      exact hwanted hand
  · rw [if_neg hmarked]
    refine ⟨Shrinks.refl hexact _, fun t' guid _ => ?_⟩
    split
    · next hand =>
      rw [hand.1, hand.2.1]
      exact Bool.eq_false_iff.mpr hmarked
    · rfl

theorem despawnLoop_spec (wanted : UInt32)
    (objects : List PoolObject) (hobjects : ∀ obj ∈ objects, obj.guid ∈ m.members t pool)
    (hexact : m.Exact s) :
    m.Shrinks (m.rank pool + 1) s
        (objects.foldl (despawnIfSpawned t despawn1 pool wanted) s) ∧
      ∀ t', ∀ guid ∈ m.members t' pool,
        (objects.foldl (despawnIfSpawned t despawn1 pool wanted) s).isSpawnedObject t' guid =
          if t' = t ∧ guid ∈ objects.map PoolObject.guid ∧ (wanted = 0 ∨ guid = wanted)
          then false else s.isSpawnedObject t' guid := by
  induction objects generalizing s with
  | nil => exact ⟨Shrinks.refl hexact _, fun t' guid _ => by simp⟩
  | cons obj objects ih =>
    rw [forall_mem_cons] at hobjects
    obtain ⟨hfirst, hmarks⟩ := despawnIfSpawned_spec hdespawn hobjects.1 hexact
    obtain ⟨hrest, hmarks'⟩ := ih hobjects.2 hfirst.exact
    refine ⟨hfirst.trans hrest, fun t' guid hguid => ?_⟩
    rw [foldl_cons, hmarks' t' guid hguid, hmarks t' guid hguid]
    by_cases ht : t' = t
    · by_cases hwanted : wanted = 0 ∨ guid = wanted
      · by_cases heq : guid = obj.guid
        · subst heq
          simp [ht, hwanted]
        · simp [ht, heq]
      · simp [hwanted]
    · simp [ht]

/-- `DespawnObject` takes the marks it is asked to. -/
theorem despawnObject_spec (wanted : UInt32)
    (hexact : m.Exact s) :
    m.Shrinks (m.rank pool + 1) s
        (despawnObject t despawn1 pool (m.groups t pool) wanted s) ∧
      ∀ t', ∀ guid ∈ m.members t' pool,
        (despawnObject t despawn1 pool (m.groups t pool) wanted s).isSpawnedObject t' guid =
          if t' = t ∧ (wanted = 0 ∨ guid = wanted) then false
          else s.isSpawnedObject t' guid := by
  have hloop := despawnLoop_spec hdespawn wanted (m.groups t pool).objects
    (fun obj hobj => mem_map_of_mem hobj) hexact
  have hfold : despawnObject t despawn1 pool (m.groups t pool) wanted s =
      (m.groups t pool).objects.foldl (despawnIfSpawned t despawn1 pool wanted) s :=
    foldl_append.symm
  rw [hfold]
  refine ⟨hloop.1, fun t' guid hguid => ?_⟩
  rw [hloop.2 t' guid hguid]
  by_cases ht : t' = t
  · subst ht
    have hmem : guid ∈ (m.groups t' pool).objects.map PoolObject.guid := hguid
    simp [hmem]
  · simp [ht]

/-- Despawning one spawned member takes it out of the count. -/
theorem numSpawned_despawnObject {wanted : UInt32}
    (hwanted : wanted ≠ 0) (hmem : wanted ∈ m.members t pool) (hexact : m.Exact s)
    (hmarked : s.isSpawnedObject t wanted = true) :
    m.numSpawned (despawnObject t despawn1 pool (m.groups t pool) wanted s) pool + 1 =
      m.numSpawned s pool := by
  obtain ⟨-, hmarks⟩ := despawnObject_spec hdespawn wanted hexact
  have hflips : m.Flips s (despawnObject t despawn1 pool (m.groups t pool) wanted s) pool t
      wanted false := by
    intro t' guid' hguid'
    rw [hmarks t' guid' hguid']
    simp [hwanted]
  have hunmarked : (despawnObject t despawn1 pool (m.groups t pool) wanted s).isSpawnedObject t
      wanted = false := by
    rw [hflips t wanted hmem, if_pos ⟨rfl, rfl⟩]
  exact ((hflips.symm hmarked).numSpawned_eq hmem hunmarked).symm

end

/-- Nothing is behind a creature or gameobject. -/
theorem despawns_member (ht : t ≠ .pool) : m.Despawns t pool fun _ s => s :=
  fun _ _ _ hexact _ => ⟨Shrinks.refl hexact _, fun hpool => absurd hpool ht⟩

/-- An empty group lists no members. -/
theorem members_of_isEmpty (hempty : (m.groups t pool).isEmpty = true) :
    m.members t pool = [] := by
  unfold PoolGroup.isEmpty at hempty
  simp only [Bool.and_eq_true, List.isEmpty_iff] at hempty
  unfold members PoolGroup.objects
  rw [hempty.1, hempty.2]
  rfl

theorem despawnMembers_spec (hdespawn : m.Despawns t pool despawn1) (hexact : m.Exact s) :
    m.Shrinks (m.rank pool + 1) s (m.despawnMembers t despawn1 pool s) ∧
      ∀ t', ∀ guid ∈ m.members t' pool,
        (m.despawnMembers t despawn1 pool s).isSpawnedObject t' guid =
          if t' = t then false else s.isSpawnedObject t' guid := by
  unfold despawnMembers
  split
  · next hempty =>
    refine ⟨Shrinks.refl hexact _, fun t' guid hguid => (if_neg ?_).symm⟩
    rintro rfl
    rw [members_of_isEmpty hempty] at hguid
    cases hguid
  · obtain ⟨hshrinks, hmarks⟩ := despawnObject_spec hdespawn 0 hexact
    refine ⟨hshrinks, fun t' guid hguid => ?_⟩
    rw [hmarks t' guid hguid]
    simp

/-- `DespawnPool` despawns all members of a pool. -/
theorem despawnPoolTo_spec {depth : Nat} (hdepth : m.rank pool < depth) (hexact : m.Exact s) :
    m.Shrinks (m.rank pool + 1) s (m.despawnPoolTo depth pool s) ∧
      m.numSpawned (m.despawnPoolTo depth pool s) pool = 0 := by
  induction depth generalizing pool s with
  | zero => exact absurd hdepth (Nat.not_lt_zero _)
  | succ depth ih =>
    have hchildren : m.Despawns .pool pool (m.despawnPoolTo depth) := by
      intro child hchild s hexact _
      have hlt : m.rank child < m.rank pool := m.rank_lt child pool (mem_members.mp hchild)
      obtain ⟨hshrinks, hnone⟩ := @ih s child (by omega) hexact
      exact ⟨hshrinks.mono hlt, fun _ => hnone⟩
    obtain ⟨hc, hcmarks⟩ := despawnMembers_spec (@despawns_member m .creature pool nofun) hexact
    obtain ⟨hg, hgmarks⟩ :=
      despawnMembers_spec (@despawns_member m .gameobject pool nofun) hc.exact
    obtain ⟨hp, hpmarks⟩ := despawnMembers_spec hchildren hg.exact
    refine ⟨(hc.trans hg).trans hp, ?_⟩
    show m.numSpawned (m.despawnMembers .pool _ pool _) pool = 0
    have hall : ∀ t, (m.members t pool).countP ((m.despawnMembers .pool (m.despawnPoolTo depth)
        pool (m.despawnMembers .gameobject (fun _ s => s) pool
          (m.despawnMembers .creature (fun _ s => s) pool s))).isSpawnedObject t) = 0 := by
      intro t
      refine countP_eq_zero.mpr fun guid hguid => ?_
      rw [hpmarks t guid hguid, hgmarks t guid hguid, hcmarks t guid hguid]
      cases t <;> simp
    unfold numSpawned
    rw [hall, hall, hall]

theorem despawnPool_spec (hexact : m.Exact s) (pool : UInt32) :
    m.Shrinks (m.rank pool + 1) s (m.despawnPool pool s) ∧
      m.numSpawned (m.despawnPool pool s) pool = 0 :=
  despawnPoolTo_spec (Nat.lt_succ_self _) hexact

/-- `Despawn1Object` despawns a member with all that is below it. -/
theorem despawns_despawn1Object (m : PoolMgr) (t : MemberType) (pool : UInt32) :
    m.Despawns t pool (m.despawn1Object t) := by
  cases t with
  | creature => exact despawns_member nofun
  | gameobject => exact despawns_member nofun
  | pool =>
    intro child hchild s hexact _
    obtain ⟨hshrinks, hnone⟩ := despawnPool_spec hexact child
    exact ⟨hshrinks.mono (m.rank_lt child pool (mem_members.mp hchild)), fun _ => hnone⟩

end PoolMgr

/-! ### Rolling -/

theorem sublist_keepRandom (draws keep : Nat) (container : List PoolObject) :
    (keepRandom random draws keep container).Sublist container := by
  induction container generalizing draws keep with
  | nil => exact List.Sublist.slnil
  | cons obj rest ih =>
    unfold keepRandom
    dsimp only
    split
    · exact (ih _ _).cons_cons obj
    · exact (ih _ _).cons obj

/-- `RandomResize` keeps no more than asked for. -/
theorem length_keepRandom_le (draws keep : Nat) (container : List PoolObject) :
    (keepRandom random draws keep container).length ≤ keep := by
  induction container generalizing draws keep with
  | nil => exact Nat.zero_le _
  | cons obj rest ih =>
    unfold keepRandom
    dsimp only
    split
    · next h =>
      have hrest := ih (draws + 1) (keep - 1)
      rw [length_cons]
      omega
    · exact ih _ _

theorem sublist_rollExplicitlyChanced (triggerFrom : UInt32) (roll : Float32)
    (objects : List PoolObject) :
    (rollExplicitlyChanced s t triggerFrom roll objects).Sublist objects := by
  induction objects generalizing roll with
  | nil => exact List.Sublist.slnil
  | cons obj rest ih =>
    unfold rollExplicitlyChanced
    dsimp only
    split
    · exact (nil_sublist rest).cons_cons obj
    · exact (ih _).cons obj

/-- One member at most is rolled by its own chance, and it may be. -/
theorem rollExplicitlyChanced_spec (triggerFrom : UInt32) (roll : Float32)
    (objects : List PoolObject) :
    (rollExplicitlyChanced s t triggerFrom roll objects).length ≤ 1 ∧
      ∀ obj ∈ rollExplicitlyChanced s t triggerFrom roll objects,
        rollable s t triggerFrom obj = true := by
  induction objects generalizing roll with
  | nil => exact ⟨Nat.zero_le _, nofun⟩
  | cons obj rest ih =>
    unfold rollExplicitlyChanced
    dsimp only
    split
    · next h =>
      refine ⟨le_rfl, fun other hother => ?_⟩
      rw [mem_singleton.mp hother]
      exact (Bool.and_eq_true_iff.mp h).2
    · exact ih _

theorem randomResize_spec (draws : Nat) (container : List PoolObject) (requestedSize : Nat) :
    (randomResize random draws container requestedSize).1.Sublist container ∧
      (randomResize random draws container requestedSize).1.length ≤ requestedSize := by
  unfold randomResize
  split
  · next h => exact ⟨List.Sublist.refl container, h⟩
  · exact ⟨sublist_keepRandom draws requestedSize container, length_keepRandom_le _ _ _⟩

/-- `SpawnObject` rolls members that it may roll, no more than it needs. -/
theorem rollObjects_spec (group : PoolGroup) {count : Nat} (hcount : 0 < count)
    (triggerFrom : UInt32) :
    (rollObjects random s t group count triggerFrom).1.Sublist group.objects ∧
      (rollObjects random s t group count triggerFrom).1.length ≤ count ∧
      ∀ obj ∈ (rollObjects random s t group count triggerFrom).1,
        rollable s t triggerFrom obj = true := by
  have hexplicit : ∀ roll,
      (rollExplicitlyChanced s t triggerFrom roll group.explicitlyChanced).Sublist
        group.objects := fun roll =>
    (sublist_rollExplicitlyChanced triggerFrom roll group.explicitlyChanced).trans
      (sublist_append_right _ _)
  have hequal : group.equalChanced.Sublist group.objects := sublist_append_left _ _
  obtain ⟨rolled, hrolled⟩ : ∃ rolled, (if group.explicitlyChanced.isEmpty then ([], s.draws)
      else (rollExplicitlyChanced s t triggerFrom (random.randChance s.draws)
        group.explicitlyChanced, s.draws + 1)) = rolled := ⟨_, rfl⟩
  have hspec : rolled.1.Sublist group.objects ∧ rolled.1.length ≤ 1 ∧
      ∀ obj ∈ rolled.1, rollable s t triggerFrom obj = true := by
    rw [← hrolled]
    split
    · exact ⟨nil_sublist _, Nat.zero_le _, nofun⟩
    · exact ⟨hexplicit _, rollExplicitlyChanced_spec triggerFrom _ _⟩
  unfold rollObjects
  rw [hrolled]
  dsimp only
  split
  · obtain ⟨hsub, hlength⟩ := @randomResize_spec random rolled.2
      (group.equalChanced.filter (rollable s t triggerFrom)) count
    refine ⟨(hsub.trans filter_sublist).trans hequal, hlength, fun obj hobj => ?_⟩
    exact (mem_filter.mp (hsub.subset hobj)).2
  · exact ⟨hspec.1, le_trans hspec.2.1 hcount, hspec.2.2⟩

/-! ### Spawning -/

namespace PoolMgr

/-- Members of pools from a rank on keep their marks, the counters stay exact, and no pool
exceeds its limit that did not. -/
structure Grows (m : PoolMgr) (n : Nat) (s s' : SpawnedPoolData) : Prop where
  exact : m.Exact s'
  above : ∀ pool, n ≤ m.rank pool → m.SameMarks s s' pool
  le_limit : ∀ pool, m.numSpawned s pool ≤ (m.maxLimit pool).toNat →
    m.numSpawned s' pool ≤ (m.maxLimit pool).toNat

theorem Grows.refl (hexact : m.Exact s) (n : Nat) : m.Grows n s s :=
  ⟨hexact, fun pool _ => SameMarks.refl s pool, fun _ h => h⟩

theorem Grows.trans {n : Nat} (h : m.Grows n s s') (h' : m.Grows n s' s'') : m.Grows n s s'' where
  exact := h'.exact
  above := fun pool hpool => (h.above pool hpool).trans (h'.above pool hpool)
  le_limit := fun pool hpool => h'.le_limit pool (h.le_limit pool hpool)

theorem Grows.mono {n n' : Nat} (h : m.Grows n s s') (hle : n ≤ n') : m.Grows n' s s' where
  exact := h.exact
  above := fun pool hpool => h.above pool (le_trans hle hpool)
  le_limit := h.le_limit

theorem Shrinks.grows {n : Nat} (h : m.Shrinks n s s') : m.Grows n s s' where
  exact := h.exact
  above := h.above
  le_limit := fun pool hpool => le_trans (h.le pool) hpool

/-- The same of every pool but one, whose members are being spawned. -/
structure Spreads (m : PoolMgr) (pool : UInt32) (s s' : SpawnedPoolData) : Prop where
  exact : m.Exact s'
  above : ∀ other, m.rank pool < m.rank other → m.SameMarks s s' other
  le_limit : ∀ other, other ≠ pool → m.numSpawned s other ≤ (m.maxLimit other).toNat →
    m.numSpawned s' other ≤ (m.maxLimit other).toNat

theorem Spreads.refl (hexact : m.Exact s) (pool : UInt32) : m.Spreads pool s s :=
  ⟨hexact, fun other _ => SameMarks.refl s other, fun _ _ h => h⟩

theorem Spreads.trans (h : m.Spreads pool s s') (h' : m.Spreads pool s' s'') :
    m.Spreads pool s s'' where
  exact := h'.exact
  above := fun other hother => (h.above other hother).trans (h'.above other hother)
  le_limit := fun other hother hle => h'.le_limit other hother (h.le_limit other hother hle)

theorem Grows.spreads (h : m.Grows (m.rank pool + 1) s s') : m.Spreads pool s s' where
  exact := h.exact
  above := fun other hother => h.above other hother
  le_limit := fun other _ hle => h.le_limit other hle

theorem Spreads.grows (h : m.Spreads pool s s')
    (hlimit : m.numSpawned s' pool ≤ (m.maxLimit pool).toNat) :
    m.Grows (m.rank pool + 1) s s' where
  exact := h.exact
  above := fun other hother => h.above other hother
  le_limit := fun other hle => by
    by_cases heq : other = pool
    · rw [heq]
      exact hlimit
    · exact h.le_limit other heq hle

/-- A pool stays ready: its mark is one of a member of a pool above it. -/
theorem Ready.of_spreads (hready : m.Ready s pool) (h : m.Spreads pool s s') :
    m.Ready s' pool := by
  unfold Ready
  cases hmother : m.searchMap .pool pool with
  | none => exact Or.inl rfl
  | some mother =>
    right
    rw [h.above mother (m.rank_lt pool mother hmother) .pool pool (mem_members.mpr hmother)]
    exact hready.resolve_left (by rw [hmother]; exact nofun)

theorem spreads_addSpawn (hexact : m.Exact s) (hready : m.Ready s pool)
    (hguid : guid ∈ m.members t pool) (hunmarked : s.isSpawnedObject t guid = false) :
    m.Spreads pool s (s.addSpawn t guid pool) := by
  have hsame : ∀ other, other ≠ pool → m.SameMarks s (s.addSpawn t guid pool) other :=
    fun other hother =>
      (flips_addSpawn hready other).sameMarks (not_mem_members hguid hother)
  refine ⟨exact_addSpawn hexact hready hguid hunmarked, fun other hrank => ?_,
    fun other hother hle => ?_⟩
  · refine hsame other ?_
    rintro rfl
    omega
  · rw [(hsame other hother).numSpawned_eq]
    exact hle

/-- What `Spawn1Object` does to a member of a pool that has just been marked. -/
def Spawns (m : PoolMgr) (t : MemberType) (pool : UInt32)
    (spawn1 : UInt32 → SpawnedPoolData → SpawnedPoolData) : Prop :=
  ∀ guid ∈ m.members t pool, ∀ s, m.Exact s → s.isSpawnedObject t guid = true →
    (t = .pool → m.numSpawned s guid = 0) → m.Grows (m.rank pool) s (spawn1 guid s)

variable {spawn1 despawn1 : UInt32 → SpawnedPoolData → SpawnedPoolData}

/-- Marking and spawning one member. -/
theorem spawnOne_spec (hspawn : m.Spawns t pool spawn1) (hexact : m.Exact s)
    (hready : m.Ready s pool) (hguid : guid ∈ m.members t pool)
    (hunmarked : s.isSpawnedObject t guid = false) :
    m.Spreads pool s (spawn1 guid (s.addSpawn t guid pool)) ∧
      m.Flips s (spawn1 guid (s.addSpawn t guid pool)) pool t guid true := by
  have hadd : m.Spreads pool s (s.addSpawn t guid pool) :=
    spreads_addSpawn hexact hready hguid hunmarked
  have hflips : m.Flips s (s.addSpawn t guid pool) pool t guid true := flips_addSpawn hready pool
  have hmarked : (s.addSpawn t guid pool).isSpawnedObject t guid = true := by
    rw [hflips t guid hguid, if_pos ⟨rfl, rfl⟩]
  have hnone : t = .pool → m.numSpawned (s.addSpawn t guid pool) guid = 0 := by
    rintro rfl
    have hne : guid ≠ pool := ne_pool_of_mem_members hguid rfl
    rw [← hadd.exact, SpawnedPoolData.getSpawnedObjects_addSpawn fun _ => hne, if_neg hne,
      if_pos ⟨rfl, rfl⟩]
  have hinner := hspawn guid hguid _ hadd.exact hmarked hnone
  refine ⟨hadd.trans (hinner.mono (Nat.le_succ _)).spreads, fun t' guid' hguid' => ?_⟩
  rw [hinner.above pool le_rfl t' guid' hguid', hflips t' guid' hguid']

/-- What the loop over the rolled members of a pool has done: it has marked each of them, but
the one that was still marked. -/
structure Rolled (m : PoolMgr) (pool : UInt32) (length : Nat) (triggerFrom : UInt32)
    (s s' : SpawnedPoolData) (left : UInt32) : Prop where
  spreads : m.Spreads pool s s'
  keeps : ∀ t, ∀ guid ∈ m.members t pool, s.isSpawnedObject t guid = true →
    s'.isSpawnedObject t guid = true
  counts : (left = triggerFrom ∧ m.numSpawned s' pool ≤ m.numSpawned s pool + length) ∨
    (left = 0 ∧ m.numSpawned s' pool + 1 ≤ m.numSpawned s pool + length)

theorem spawnRolled_spec (hspawn : m.Spawns t pool spawn1) (rolled : List PoolObject)
    (triggerFrom : UInt32) (hexact : m.Exact s) (hready : m.Ready s pool)
    (hmember : ∀ obj ∈ rolled, obj.guid ∈ m.members t pool)
    (hrollable : ∀ obj ∈ rolled, rollable s t triggerFrom obj = true)
    (hnodup : (rolled.map PoolObject.guid).Nodup) :
    m.Rolled pool rolled.length triggerFrom s
      (spawnRolled t spawn1 pool rolled triggerFrom s).1
      (spawnRolled t spawn1 pool rolled triggerFrom s).2 := by
  induction rolled generalizing triggerFrom s with
  | nil => exact ⟨Spreads.refl hexact pool, fun _ _ _ h => h, Or.inl ⟨rfl, le_rfl⟩⟩
  | cons obj rest ih =>
    rw [forall_mem_cons] at hmember hrollable
    rw [map_cons, nodup_cons] at hnodup
    -- The other members are not the triggering one either, so they are not marked.
    have hrest : ∀ other ∈ rest, other.guid ≠ obj.guid :=
      fun other hother heq => hnodup.1 (heq ▸ mem_map_of_mem hother)
    unfold spawnRolled
    by_cases htrigger : obj.guid = triggerFrom
    · rw [if_pos htrigger]
      have hothers : ∀ other ∈ rest, rollable s t 0 other = true := by
        intro other hother
        have hroll := hrollable.2 other hother
        unfold rollable at hroll ⊢
        simp only [htrigger ▸ hrest other hother, decide_false, Bool.false_or] at hroll
        rw [hroll, Bool.or_true]
      have hrec := ih 0 hexact hready hmember.2 hothers hnodup.2
      refine ⟨hrec.spreads, hrec.keeps, Or.inr ?_⟩
      rw [length_cons]
      cases hrec.counts with
      | inl h => exact ⟨h.1, by omega⟩
      | inr h => exact ⟨h.1, by omega⟩
    · rw [if_neg htrigger]
      have hunmarked : s.isSpawnedObject t obj.guid = false := by
        have hroll := hrollable.1
        unfold rollable at hroll
        simpa [htrigger] using hroll
      obtain ⟨hspreads, hflips⟩ := spawnOne_spec hspawn hexact hready hmember.1 hunmarked
      have hone := hflips.numSpawned_eq hmember.1 hunmarked
      have hothers : ∀ other ∈ rest, rollable (spawn1 obj.guid (s.addSpawn t obj.guid pool)) t
          triggerFrom other = true := by
        intro other hother
        have hmark := hflips t other.guid (hmember.2 other hother)
        rw [if_neg fun hand => hrest other hother hand.2] at hmark
        have hroll := hrollable.2 other hother
        unfold rollable at hroll ⊢
        rw [hmark]
        exact hroll
      have hrec := ih triggerFrom hspreads.exact (hready.of_spreads hspreads) hmember.2 hothers
        hnodup.2
      refine ⟨hspreads.trans hrec.spreads, fun t' guid hguid hmarked => ?_, ?_⟩
      · refine hrec.keeps t' guid hguid ?_
        rw [hflips t' guid hguid, hmarked, ite_self]
      · rw [length_cons]
        cases hrec.counts with
        | inl h => exact Or.inl ⟨h.1, by omega⟩
        | inr h => exact Or.inr ⟨h.1, by omega⟩

/-- Drawing random numbers marks nothing. -/
theorem spreads_draws (hexact : m.Exact s) (pool : UInt32) (draws : Nat) :
    m.Spreads pool s { s with draws := draws } ∧
      ∀ t guid, ({ s with draws := draws } : SpawnedPoolData).isSpawnedObject t guid =
        s.isSpawnedObject t guid := by
  have hmarks : ∀ t guid, ({ s with draws := draws } : SpawnedPoolData).isSpawnedObject t guid =
      s.isSpawnedObject t guid := by
    intro t guid
    cases t <;> rfl
  exact ⟨⟨hexact, fun _ _ t guid _ => hmarks t guid, fun _ _ h => h⟩, hmarks⟩

/-- What `SpawnObject` computes to be spawned is not more than what is missing. -/
theorem toInt_le {n : Int} (h0 : 0 ≤ n) : toInt n ≤ n := by
  unfold toInt
  rw [Int.bmod_def]
  split <;> omega

theorem toInt_succ_le {n : Int} (h0 : 0 ≤ n) : toInt (toInt n + 1) ≤ n + 1 := by
  unfold toInt
  rw [Int.bmod_def, Int.bmod_def]
  split <;> split <;> omega

/-- `SpawnObject` keeps the limit of the pool, also when a spawned member triggers it. -/
theorem spawnObject_spec (hspawn : m.Spawns t pool spawn1) (hdespawn : m.Despawns t pool despawn1)
    (triggerFrom : UInt32) (hexact : m.Exact s) (hready : m.Ready s pool)
    (hlimit : m.numSpawned s pool ≤ (m.maxLimit pool).toNat)
    (htrigger : triggerFrom = 0 ∨
      triggerFrom ∈ m.members t pool ∧ s.isSpawnedObject t triggerFrom = true) :
    m.Grows (m.rank pool + 1) s
      (spawnObject random t spawn1 despawn1 pool (m.groups t pool) (m.maxLimit pool)
        triggerFrom s) := by
  -- The last step takes the triggering member out of the count, if it was not rolled.
  have hlast : ∀ s' left, m.Rolled pool
      ((m.maxLimit pool).toNat - m.numSpawned s pool + if triggerFrom ≠ 0 then 1 else 0)
      triggerFrom s s' left →
      m.Grows (m.rank pool + 1) s
        (if left ≠ 0 then despawnObject t despawn1 pool (m.groups t pool) left s' else s') := by
    intro s' left hrolled
    have hcounts := hrolled.counts
    split
    · next hleft =>
      obtain ⟨rfl, hle⟩ := hcounts.resolve_right fun h => hleft h.1
      obtain ⟨hmem, hmarked⟩ := htrigger.resolve_left hleft
      have hstill := hrolled.keeps t left hmem hmarked
      have hspec := (despawnObject_spec hdespawn left hrolled.spreads.exact).1
      have hone := numSpawned_despawnObject hdespawn hleft hmem hrolled.spreads.exact hstill
      rw [if_pos hleft] at hle
      refine (hrolled.spreads.trans hspec.grows.spreads).grows ?_
      omega
    · next hleft =>
      rw [not_not] at hleft
      refine hrolled.spreads.grows ?_
      cases hcounts with
      | inl h =>
        have hzero : triggerFrom = 0 := h.1.symm.trans hleft
        have hle := h.2
        rw [if_neg (not_not.mpr hzero)] at hle
        omega
      | inr h =>
        have hle := h.2
        split at hle <;> omega
  have hcount : ∀ {count : Int}, count = (if triggerFrom ≠ 0 then
        toInt (toInt ((m.maxLimit pool).toNat - s.getSpawnedObjects pool) + 1)
      else toInt ((m.maxLimit pool).toNat - s.getSpawnedObjects pool)) →
      count.toNat ≤ (m.maxLimit pool).toNat - m.numSpawned s pool +
        if triggerFrom ≠ 0 then 1 else 0 := by
    rintro count rfl
    rw [hexact]
    have hmissing : (0 : Int) ≤ (m.maxLimit pool).toNat - m.numSpawned s pool := by omega
    have hle := toInt_le hmissing
    have hle' := toInt_succ_le hmissing
    split <;> omega
  unfold spawnObject
  dsimp only
  generalize hc : (if triggerFrom ≠ 0 then _ else _ : Int) = count
  have hle := hcount hc.symm
  split
  · next hpos =>
    obtain ⟨hsub, hlength, hrollable⟩ :=
      @rollObjects_spec random s t (m.groups t pool) count.toNat (by omega) triggerFrom
    have hdraws := spreads_draws hexact pool
      (rollObjects random s t (m.groups t pool) count.toNat triggerFrom).2
    have hrolled := spawnRolled_spec hspawn
      (rollObjects random s t (m.groups t pool) count.toNat triggerFrom).1 triggerFrom
      hdraws.1.exact (hready.of_spreads hdraws.1)
      (fun obj hobj => mem_map_of_mem (hsub.subset hobj))
      (fun obj hobj => by
        have h := hrollable obj hobj
        unfold rollable at h ⊢
        rw [hdraws.2]
        exact h)
      ((m.nodup t pool).sublist (hsub.map PoolObject.guid))
    refine hlast _ _ ⟨hdraws.1.trans hrolled.spreads, fun t' guid hguid hmarked => ?_, ?_⟩
    · refine hrolled.keeps t' guid hguid ?_
      rw [hdraws.2]
      exact hmarked
    · have hsame : m.numSpawned { s with draws := (rollObjects random s t (m.groups t pool)
          count.toNat triggerFrom).2 } pool = m.numSpawned s pool := rfl
      have hcounts := hrolled.counts
      rw [hsame] at hcounts
      cases hcounts with
      | inl h => exact Or.inl ⟨h.1, by omega⟩
      | inr h => exact Or.inr ⟨h.1, by omega⟩
  · exact hlast s triggerFrom
      ⟨Spreads.refl hexact pool, fun _ _ _ h => h, Or.inl ⟨rfl, Nat.le_add_right _ _⟩⟩

theorem spawnMembers_spec (hspawn : m.Spawns t pool spawn1) (triggerFrom : UInt32)
    (hexact : m.Exact s) (hready : m.Ready s pool)
    (hlimit : m.numSpawned s pool ≤ (m.maxLimit pool).toNat)
    (htrigger : triggerFrom = 0 ∨
      triggerFrom ∈ m.members t pool ∧ s.isSpawnedObject t triggerFrom = true) :
    m.Grows (m.rank pool + 1) s (m.spawnMembers random t spawn1 pool triggerFrom s) := by
  unfold spawnMembers
  split
  · exact Grows.refl hexact _
  · exact spawnObject_spec hspawn (m.despawns_despawn1Object t pool) triggerFrom hexact hready
      hlimit htrigger

/-- Nothing is behind a creature or gameobject. -/
theorem spawns_member : m.Spawns t pool fun _ s => s :=
  fun _ _ _ hexact _ _ => Grows.refl hexact _

/-- `SpawnPool` spawns members of a pool, and of those below it, up to their limits. -/
theorem spawnPoolTo_spec {depth : Nat} (hdepth : m.rank pool < depth) (hexact : m.Exact s)
    (hready : m.Ready s pool) (hlimit : m.numSpawned s pool ≤ (m.maxLimit pool).toNat) :
    m.Grows (m.rank pool + 1) s (m.spawnPoolTo random depth pool s) := by
  induction depth generalizing pool s with
  | zero => exact absurd hdepth (Nat.not_lt_zero _)
  | succ depth ih =>
    have hchildren : m.Spawns .pool pool (m.spawnPoolTo random depth) := by
      intro child hchild s hexact hmarked hnone
      have hlt : m.rank child < m.rank pool := m.rank_lt child pool (mem_members.mp hchild)
      have hzero : m.numSpawned s child = 0 := hnone rfl
      exact (ih (by omega) hexact (Or.inr hmarked) (by omega)).mono hlt
    have hp : m.Grows (m.rank pool + 1) s
        (m.spawnMembers random .pool (m.spawnPoolTo random depth) pool 0 s) :=
      spawnMembers_spec hchildren 0 hexact hready hlimit (Or.inl rfl)
    have hg := @spawnMembers_spec m random _ .gameobject pool (fun _ s => s)
      spawns_member 0 hp.exact (hready.of_spreads hp.spreads) (hp.le_limit pool hlimit)
      (Or.inl rfl)
    have hpg := hp.trans hg
    have hc := @spawnMembers_spec m random _ .creature pool (fun _ s => s)
      spawns_member 0 hpg.exact (hready.of_spreads hpg.spreads)
      (hpg.le_limit pool hlimit) (Or.inl rfl)
    exact hpg.trans hc

theorem spawnPool_spec (hexact : m.Exact s) (hready : m.Ready s pool)
    (hlimit : m.numSpawned s pool ≤ (m.maxLimit pool).toNat) :
    m.Grows (m.rank pool + 1) s (m.spawnPool random pool s) :=
  spawnPoolTo_spec (Nat.lt_succ_self _) hexact hready hlimit

/-- `Spawn1Object` spawns what is below a member. -/
theorem spawns_spawn1Object (m : PoolMgr) (t : MemberType) (pool : UInt32) :
    m.Spawns t pool (m.spawn1Object random t) := by
  cases t with
  | creature => exact spawns_member
  | gameobject => exact spawns_member
  | pool =>
    intro child hchild s hexact hmarked hnone
    have hzero : m.numSpawned s child = 0 := hnone rfl
    exact (spawnPool_spec hexact (Or.inr hmarked) (by omega)).mono
      (m.rank_lt child pool (mem_members.mp hchild))

/-! ### The recursion

The ranks bound the depth of the recursion, so pools are spawned and despawned by the equations
of the source, which call themselves for the child pools. -/

theorem despawnMembers_congr {f g : UInt32 → SpawnedPoolData → SpawnedPoolData}
    (h : ∀ guid ∈ m.members t pool, f guid = g guid) (s : SpawnedPoolData) :
    m.despawnMembers t f pool s = m.despawnMembers t g pool s := by
  have hround : ∀ (s : SpawnedPoolData), ∀ obj ∈ (m.groups t pool).objects,
      despawnIfSpawned t f pool 0 s obj = despawnIfSpawned t g pool 0 s obj := by
    intro s obj hobj
    unfold despawnIfSpawned
    rw [h obj.guid (mem_map_of_mem hobj)]
  have hfold : ∀ f, despawnObject t f pool (m.groups t pool) 0 s =
      (m.groups t pool).objects.foldl (despawnIfSpawned t f pool 0) s :=
    fun _ => foldl_append.symm
  unfold despawnMembers
  rw [hfold f, hfold g, foldl_ext _ _ s hround]

theorem despawnPoolTo_depth {depth depth' : Nat} (h : m.rank pool < depth)
    (h' : m.rank pool < depth') (s : SpawnedPoolData) :
    m.despawnPoolTo depth pool s = m.despawnPoolTo depth' pool s := by
  induction depth generalizing depth' pool s with
  | zero => exact absurd h (Nat.not_lt_zero _)
  | succ depth ih =>
    cases depth' with
    | zero => exact absurd h' (Nat.not_lt_zero _)
    | succ depth' =>
      unfold despawnPoolTo
      refine despawnMembers_congr (fun child hchild => ?_) _
      have hlt : m.rank child < m.rank pool := m.rank_lt child pool (mem_members.mp hchild)
      ext1 s
      exact ih (by omega) (by omega) s

/-- `DespawnPool` despawns its child pools by itself. -/
theorem despawnPool_eq (m : PoolMgr) (pool : UInt32) (s : SpawnedPoolData) :
    m.despawnPool pool s =
      m.despawnMembers .pool (m.despawn1Object .pool) pool
        (m.despawnMembers .gameobject (m.despawn1Object .gameobject) pool
          (m.despawnMembers .creature (m.despawn1Object .creature) pool s)) := by
  unfold despawnPool despawnPoolTo
  refine despawnMembers_congr (fun child hchild => ?_) _
  have hlt : m.rank child < m.rank pool := m.rank_lt child pool (mem_members.mp hchild)
  ext1 s
  exact despawnPoolTo_depth hlt (Nat.lt_succ_self _) s

theorem spawnRolled_congr {f g : UInt32 → SpawnedPoolData → SpawnedPoolData}
    {rolled : List PoolObject} (h : ∀ obj ∈ rolled, f obj.guid = g obj.guid)
    (triggerFrom : UInt32) (s : SpawnedPoolData) :
    spawnRolled t f pool rolled triggerFrom s = spawnRolled t g pool rolled triggerFrom s := by
  induction rolled generalizing triggerFrom s with
  | nil => rfl
  | cons obj rest ih =>
    rw [forall_mem_cons] at h
    unfold spawnRolled
    rw [h.1, ih h.2, ih h.2]

theorem spawnMembers_congr {f g : UInt32 → SpawnedPoolData → SpawnedPoolData}
    (h : ∀ guid ∈ m.members t pool, f guid = g guid) (triggerFrom : UInt32)
    (s : SpawnedPoolData) :
    m.spawnMembers random t f pool triggerFrom s =
      m.spawnMembers random t g pool triggerFrom s := by
  unfold spawnMembers spawnObject
  dsimp only
  generalize (if triggerFrom ≠ 0 then _ else _ : Int) = count
  by_cases hpos : 0 < count
  · have hsub := (@rollObjects_spec random s t (m.groups t pool) count.toNat (by omega)
      triggerFrom).1
    rw [if_pos hpos, if_pos hpos,
      spawnRolled_congr fun obj hobj => h obj.guid (mem_map_of_mem (hsub.subset hobj))]
  · rw [if_neg hpos, if_neg hpos]

theorem spawnPoolTo_depth {depth depth' : Nat} (h : m.rank pool < depth)
    (h' : m.rank pool < depth') (s : SpawnedPoolData) :
    m.spawnPoolTo random depth pool s = m.spawnPoolTo random depth' pool s := by
  induction depth generalizing depth' pool s with
  | zero => exact absurd h (Nat.not_lt_zero _)
  | succ depth ih =>
    cases depth' with
    | zero => exact absurd h' (Nat.not_lt_zero _)
    | succ depth' =>
      have hchildren : ∀ child ∈ m.members .pool pool,
          m.spawnPoolTo random depth child = m.spawnPoolTo random depth' child := by
        intro child hchild
        have hlt : m.rank child < m.rank pool := m.rank_lt child pool (mem_members.mp hchild)
        ext1 s
        exact ih (by omega) (by omega) s
      unfold spawnPoolTo
      rw [spawnMembers_congr hchildren]

/-- `SpawnPool` spawns its child pools by itself. -/
theorem spawnPool_eq (m : PoolMgr) (random : Random) (pool : UInt32) (s : SpawnedPoolData) :
    m.spawnPool random pool s =
      m.spawnMembers random .creature (m.spawn1Object random .creature) pool 0
        (m.spawnMembers random .gameobject (m.spawn1Object random .gameobject) pool 0
          (m.spawnMembers random .pool (m.spawn1Object random .pool) pool 0 s)) := by
  have hchildren : ∀ child ∈ m.members .pool pool,
      m.spawnPoolTo random (m.rank pool) child = m.spawn1Object random .pool child := by
    intro child hchild
    have hlt : m.rank child < m.rank pool := m.rank_lt child pool (mem_members.mp hchild)
    ext1 s
    exact spawnPoolTo_depth hlt (Nat.lt_succ_self _) s
  unfold spawnPool spawnPoolTo
  rw [spawnMembers_congr hchildren]
  rfl

/-! ### Runs -/

/-- Every counter is exact, and within the limit of its pool. -/
structure Sound (m : PoolMgr) (s : SpawnedPoolData) : Prop where
  exact : m.Exact s
  le_limit : ∀ pool, m.numSpawned s pool ≤ (m.maxLimit pool).toNat

theorem Sound.grows {n : Nat} (h : m.Sound s) (hgrows : m.Grows n s s') : m.Sound s' :=
  ⟨hgrows.exact, fun pool => hgrows.le_limit pool (h.le_limit pool)⟩

/-- The operations are called for pools that are in no other pool, and for members of a pool
that are marked spawned. -/
def Called (m : PoolMgr) (s : SpawnedPoolData) : Op → Prop
  | .spawnPool pool => m.searchMap .pool pool = none
  | .despawnPool pool => m.searchMap .pool pool = none
  | .updatePool t pool guid =>
    m.searchMap t guid = some pool ∧ s.isSpawnedObject t guid = true

theorem sound_updatePool (h : m.Sound s) (hguid : m.searchMap t guid = some pool)
    (hmarked : s.isSpawnedObject t guid = true) :
    m.Sound (m.updatePool random t pool guid s) := by
  have hpool : s.isSpawnedObject .pool pool = true :=
    h.exact.isSpawnedObject_pool (mem_members.mpr hguid) hmarked
  unfold updatePool
  dsimp only
  split
  · next hmother =>
    cases hsearch : m.searchMap .pool pool with
    | none =>
      unfold isPartOfAPool at hmother
      rw [hsearch] at hmother
      exact absurd rfl hmother
    | some mother =>
      have heq : m.isPartOfAPool .pool pool = mother := by
        unfold isPartOfAPool
        rw [hsearch]
        rfl
      have hmem : pool ∈ m.members .pool mother := mem_members.mpr hsearch
      rw [heq]
      exact h.grows (spawnMembers_spec (m.spawns_spawn1Object .pool mother) pool h.exact
        (Or.inr (h.exact.isSpawnedObject_pool hmem hpool)) (h.le_limit mother)
        (Or.inr ⟨hmem, hpool⟩))
  · exact h.grows (spawnMembers_spec (m.spawns_spawn1Object t pool) guid h.exact (Or.inr hpool)
      (h.le_limit pool) (Or.inr ⟨mem_members.mpr hguid, hmarked⟩))

/-- One operation. -/
theorem Sound.step (h : m.Sound s) (op : Op) (hcalled : m.Called s op) :
    m.Sound (m.step random s op) := by
  cases op with
  | spawnPool pool => exact h.grows (spawnPool_spec h.exact (Or.inl hcalled) (h.le_limit pool))
  | despawnPool pool => exact h.grows (despawnPool_spec h.exact pool).1.grows
  | updatePool t pool guid => exact sound_updatePool h hcalled.1 hcalled.2

/-- Nothing is spawned in the beginning. -/
theorem sound_empty (m : PoolMgr) : m.Sound {} := by
  have hmarks : ∀ t guid, ({} : SpawnedPoolData).isSpawnedObject t guid = false := by
    intro t guid
    cases t with
    | creature => simp [SpawnedPoolData.isSpawnedObject]
    | gameobject => simp [SpawnedPoolData.isSpawnedObject]
    | pool => simp [SpawnedPoolData.isSpawnedObject]
  have hzero : ∀ pool, m.numSpawned {} pool = 0 := by
    intro pool
    have hcount : ∀ t, (m.members t pool).countP (({} : SpawnedPoolData).isSpawnedObject t) = 0 :=
      fun t => countP_eq_zero.mpr fun guid _ => by rw [hmarks]; exact nofun
    unfold numSpawned
    rw [hcount, hcount, hcount]
  refine ⟨fun pool => ?_, fun pool => ?_⟩
  · rw [hzero]
    exact SpawnedPoolData.getSpawnedObjects_of_not_spawned (hmarks .pool pool)
  · rw [hzero]
    exact Nat.zero_le _

end PoolMgr

/-- After every run of operations on top-level pools and of updates for spawned members, the
counter of each spawned pool is the number of its spawned members and within its limit, and the
members of a child pool are spawned only if it is. -/
theorem run_spawnCounts (m : PoolMgr) (random : Random) (events : List Op)
    (hcalled : StateMachine.Admits (m.step random) m.Called {} events) :
    (∀ pool n,
      (StateMachine.run (m.step random) {} events).spawnedPools.lookup pool = some n →
        n = m.numSpawned (StateMachine.run (m.step random) {} events) pool ∧
          n ≤ (m.maxLimit pool).toNat) ∧
    ∀ t guid child mother, m.searchMap t guid = some child →
      m.searchMap .pool child = some mother →
      (StateMachine.run (m.step random) {} events).isSpawnedObject t guid = true →
      (StateMachine.run (m.step random) {} events).isSpawnedObject .pool child = true := by
  have hsound : m.Sound (StateMachine.run (m.step random) {} events) :=
    StateMachine.run_invariant_of_admits m.sound_empty (fun _ op h hop => h.step op hop) events
      hcalled
  refine ⟨fun pool n hn => ?_, fun t guid child mother hguid _ hmarked => ?_⟩
  · have hcounter : (StateMachine.run (m.step random) {} events).getSpawnedObjects pool = n := by
      unfold SpawnedPoolData.getSpawnedObjects
      rw [hn]
      rfl
    rw [← hcounter, hsound.exact]
    exact ⟨rfl, hsound.le_limit pool⟩
  · exact hsound.exact.isSpawnedObject_pool (PoolMgr.mem_members.mpr hguid) hmarked

/-- Two creatures in a pool of one, that pool and a creature in a pool of two. -/
def twoLevels : PoolMgr where
  maxLimit pool := if pool = 1 then 2 else 1
  groups
    | .creature, pool =>
      if pool = 1 then { equalChanced := [⟨10, 0⟩] }
      else if pool = 2 then { equalChanced := [⟨20, 0⟩, ⟨21, 0⟩] }
      else {}
    | .gameobject, _ => {}
    | .pool, pool => if pool = 1 then { equalChanced := [⟨2, 0⟩] } else {}
  searchMap
    | .creature, guid =>
      if guid = 10 then some 1 else if guid = 20 ∨ guid = 21 then some 2 else none
    | .gameobject, _ => none
    | .pool, pool => if pool = 2 then some 1 else none
  rank pool := if pool = 1 then 1 else 0
  searchMap_of_mem := by
    intro t pool obj hobj
    unfold PoolGroup.objects at hobj
    cases t with
    | creature =>
      by_cases hone : pool = 1
      · simp_all
      · by_cases htwo : pool = 2
        · simp [htwo] at hobj
          obtain rfl | rfl := hobj <;> simp [htwo]
        · simp [hone, htwo] at hobj
    | gameobject => simp at hobj
    | pool =>
      by_cases hone : pool = 1
      · simp_all
      · simp [hone] at hobj
  mem_of_searchMap := by
    intro t guid pool h
    unfold PoolGroup.objects
    cases t with
    | creature =>
      by_cases hten : guid = 10
      · simp_all
      · by_cases htwenty : guid = 20 ∨ guid = 21
        · simp [hten, htwenty] at h
          obtain rfl | rfl := htwenty <;> simp [← h]
        · simp [hten, htwenty] at h
    | gameobject => simp at h
    | pool =>
      by_cases htwo : guid = 2
      · simp_all
      · simp [htwo] at h
  nodup := by
    intro t pool
    unfold PoolGroup.objects
    cases t with
    | creature =>
      by_cases hone : pool = 1
      · simp [hone]
      · by_cases htwo : pool = 2
        · simp [htwo]
        · simp [hone, htwo]
    | gameobject => simp
    | pool =>
      by_cases hone : pool = 1
      · simp [hone]
      · simp [hone]
  rank_lt := by
    intro child pool h
    by_cases htwo : child = 2
    · simp only [htwo, if_true, Option.some.injEq] at h
      subst h
      simp [htwo]
    · simp [htwo] at h

/-- The pools are spawned, a spawned creature of the child pool is updated, and all despawned. -/
def spawnUpdateDespawn : List Op := [.spawnPool 1, .updatePool .creature 2 20, .despawnPool 1]

theorem run_spawnCounts_spawnUpdateDespawn :
    (∀ pool n, (StateMachine.run (twoLevels.step ⟨fun _ => 0, fun _ => 0⟩) {}
      spawnUpdateDespawn).spawnedPools.lookup pool = some n →
        n = twoLevels.numSpawned (StateMachine.run (twoLevels.step ⟨fun _ => 0, fun _ => 0⟩) {}
          spawnUpdateDespawn) pool ∧
          n ≤ (twoLevels.maxLimit pool).toNat) ∧
    ∀ t guid child mother, twoLevels.searchMap t guid = some child →
      twoLevels.searchMap .pool child = some mother →
      (StateMachine.run (twoLevels.step ⟨fun _ => 0, fun _ => 0⟩) {}
        spawnUpdateDespawn).isSpawnedObject t guid = true →
      (StateMachine.run (twoLevels.step ⟨fun _ => 0, fun _ => 0⟩) {}
        spawnUpdateDespawn).isSpawnedObject .pool child = true :=
  run_spawnCounts twoLevels ⟨fun _ => 0, fun _ => 0⟩ spawnUpdateDespawn
    ⟨rfl, ⟨rfl, by decide⟩, rfl, trivial⟩

end TrinityCore.Pools
