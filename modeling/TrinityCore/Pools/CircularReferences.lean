import TrinityCore.Lib.ParentLinks
import TrinityCore.Pools.PoolLoading
import TrinityCore.Pools.SpawnCounts

/-!
# Circular references of pools

The pass of `PoolMgr::LoadFromDB` over the links from pools to their mothers, and `IsEmpty`. From
every pool the pass goes up, takes the map along to mothers without one, and erases the first
link to a mother on another map or to a pool it came from. What is left has no cycle, and every
pool above a pool with spawns has a map.
-/

namespace TrinityCore.Pools

open List

open Relation ParentLinks

/-- `PoolGroup<Pool>::RemoveOneRelation`. -/
def PoolGroup.removeOneRelation (group : PoolGroup) (childPoolId : UInt32) : PoolGroup where
  explicitlyChanced := group.explicitlyChanced.eraseP (·.guid = childPoolId)
  equalChanced := group.equalChanced.eraseP (·.guid = childPoolId)

/-- A link that the pass erased, with the map ids that the two pools had then. -/
structure RemovedLink where
  child : UInt32
  mother : UInt32
  childMapId : Int
  motherMapId : Int
  deriving DecidableEq, Repr

namespace Loading

/-- The link from a pool to its mother is erased, in the group and in the search map. -/
def removeLink (l : Loading) (child mother : UInt32) : Loading :=
  (l.setGroup .pool mother ((l.groups .pool mother).removeOneRelation child)).setSearchMap .pool
    child none

def removedLink (l : Loading) (child mother : UInt32) : RemovedLink :=
  ⟨child, mother, l.mapId child, l.mapId mother⟩

/-- A mother without a map gets that of the pool. -/
def propagateMapId (l : Loading) (child mother : UInt32) : Loading :=
  if l.mapId child ≠ -1 ∧ l.mapId mother = -1 then l.setMapId mother (l.mapId child) else l

/-- The inner loop, in at most so many turns: the pools above one, with those it came from. -/
def checkChain : Nat → Finset UInt32 → UInt32 → Loading → Option (Loading × Option RemovedLink)
  | 0, _, _, _ => none
  | turns + 1, checkedPools, pool, l =>
    match l.searchMap .pool pool with
    | none => some (l, none)
    | some mother =>
      let l := l.propagateMapId pool mother
      if l.mapId pool ≠ -1 ∧ l.mapId mother ≠ l.mapId pool then
        some (l.removeLink pool mother, some (l.removedLink pool mother))
      else if mother ∈ insert pool checkedPools then
        some (l.removeLink pool mother, some (l.removedLink pool mother))
      else checkChain turns (insert pool checkedPools) mother l

/-- The check for circular references, with the pools in the order `mPoolTemplate` has them. The
inner loop may take so many turns for each. -/
def checkCircularReferences (turns : Nat) :
    List UInt32 → Loading → Option (Loading × List RemovedLink)
  | [], l => some (l, [])
  | pool :: pools, l => do
    let (l, removed) ← checkChain turns ∅ pool l
    let (l, later) ← checkCircularReferences turns pools l
    return (l, removed.toList ++ later)

end Loading

/-- The loops of `PoolGroup<Pool>::isEmptyDeepCheck`, with `IsEmpty` of the child pools. -/
def allEmpty (isEmpty : UInt32 → Option Bool) : List PoolObject → Option Bool
  | [] => some true
  | obj :: rest =>
    match isEmpty obj.guid with
    | none => none
    | some false => some false
    | some true => allEmpty isEmpty rest

/-- `PoolMgr::IsEmpty`, through at most so many levels of child pools. -/
def Loading.isEmptyTo (l : Loading) : Nat → UInt32 → Option Bool
  | 0, _ => none
  | depth + 1, pool =>
    if !(l.groups .gameobject pool).isEmpty then some false
    else if !(l.groups .creature pool).isEmpty then some false
    else allEmpty (l.isEmptyTo depth)
      ((l.groups .pool pool).explicitlyChanced ++ (l.groups .pool pool).equalChanced)

/-! ### One link -/

theorem PoolGroup.guids_removeOneRelation (group : PoolGroup) (child : UInt32) :
    (group.removeOneRelation child).guids =
      (group.equalChanced.map PoolObject.guid).erase child ++
        (group.explicitlyChanced.map PoolObject.guid).erase child := by
  have herase (objects : List PoolObject) :
      (objects.eraseP (·.guid = child)).map PoolObject.guid =
        (objects.map PoolObject.guid).erase child := by
    rw [erase_eq_eraseP', eraseP_map]
    rfl
  simp only [guids, objects, removeOneRelation, map_append, herase]

/-- The child is taken out of the group and nothing else. -/
theorem PoolGroup.removeOneRelation_spec {group : PoolGroup} (hnodup : group.guids.Nodup)
    (child : UInt32) :
    (group.removeOneRelation child).guids.Nodup ∧
      ∀ guid, guid ∈ (group.removeOneRelation child).guids ↔ guid ∈ group.guids ∧ guid ≠ child := by
  simp only [guids, objects, map_append] at hnodup
  rw [guids_removeOneRelation]
  constructor
  · exact hnodup.sublist (List.Sublist.append erase_sublist erase_sublist)
  · intro guid
    rw [nodup_append] at hnodup
    rw [mem_append, hnodup.1.mem_erase_iff, hnodup.2.1.mem_erase_iff]
    simp only [guids, objects, map_append, mem_append]
    tauto

variable {removed : List RemovedLink} {turns depth : Nat}

namespace Loading

variable {l l' l'' : Loading} {child mother pool : UInt32}

/-- A link of the search map from a pool to its mother. -/
abbrev MotherLink (l : Loading) : UInt32 → UInt32 → Prop := Link (l.searchMap .pool)

/-- A link closed a cycle of links, or its pools were on different maps. -/
def Justified (links : UInt32 → UInt32 → Prop) (link : RemovedLink) : Prop :=
  ReflTransGen links link.mother link.child ∨
    (link.childMapId ≠ -1 ∧ link.motherMapId ≠ -1 ∧ link.childMapId ≠ link.motherMapId)

/-- What a part of the pass does: it keeps the spawns and the map ids there are, and erases some
links, each of them for a reason. -/
structure Trims (l l' : Loading) (removed : List RemovedLink) : Prop where
  entries_eq : l'.entries = l.entries
  spawns_eq : ∀ t, t ≠ .pool → l'.groups t = l.groups t ∧ l'.searchMap t = l.searchMap t
  mapId_eq : ∀ pool, l.mapId pool ≠ -1 → l'.mapId pool = l.mapId pool
  /-- A map comes from the pool itself or from one below it. -/
  mapId_below : ∀ pool, ∃ below, ReflTransGen l.MotherLink below pool ∧
    l'.mapId pool = l.mapId below
  link_iff : ∀ child mother, l.MotherLink child mother ↔
    l'.MotherLink child mother ∨ ∃ link ∈ removed, link.child = child ∧ link.mother = mother
  justified : ∀ link ∈ removed, Justified l.MotherLink link
  /-- The maps that an erased link joined are those of its pools in the end. -/
  recorded : ∀ link ∈ removed, (link.childMapId ≠ -1 → l'.mapId link.child = link.childMapId) ∧
    (link.motherMapId ≠ -1 → l'.mapId link.mother = link.motherMapId)
  consistent : l.Consistent .pool → l'.Consistent .pool

theorem Trims.refl (l : Loading) : Trims l l [] where
  entries_eq := rfl
  spawns_eq := fun _ _ => ⟨rfl, rfl⟩
  mapId_eq := fun _ _ => rfl
  mapId_below := fun pool => ⟨pool, ReflTransGen.refl, rfl⟩
  link_iff := by simp
  justified := by simp
  recorded := by simp
  consistent := id

theorem Trims.link_of_link (h : Trims l l' removed) (child mother : UInt32)
    (hlink : l'.MotherLink child mother) : l.MotherLink child mother :=
  (h.link_iff child mother).mpr (.inl hlink)

theorem Trims.linked (h : Trims l l' removed) (hlinked : l.Linked) : l'.Linked := by
  intro child mother hlink
  rw [h.entries_eq]
  exact hlinked child mother (h.link_of_link child mother hlink)

theorem Trims.path_of_path (h : Trims l l' removed)
    (hpath : ReflTransGen l'.MotherLink child mother) : ReflTransGen l.MotherLink child mother :=
  ReflTransGen.mono h.link_of_link child mother hpath

theorem Trims.trans {removed later : List RemovedLink} (h : Trims l l' removed)
    (h' : Trims l' l'' later) : Trims l l'' (removed ++ later) where
  entries_eq := h'.entries_eq.trans h.entries_eq
  spawns_eq := fun t ht => ⟨(h'.spawns_eq t ht).1.trans (h.spawns_eq t ht).1,
    (h'.spawns_eq t ht).2.trans (h.spawns_eq t ht).2⟩
  mapId_eq := by
    intro pool hmap
    rw [h'.mapId_eq pool (by rw [h.mapId_eq pool hmap]; exact hmap), h.mapId_eq pool hmap]
  mapId_below := by
    intro pool
    obtain ⟨middle, hpath', hmap'⟩ := h'.mapId_below pool
    obtain ⟨below, hpath, hmap⟩ := h.mapId_below middle
    exact ⟨below, hpath.trans (h.path_of_path hpath'), hmap'.trans hmap⟩
  link_iff := by
    intro child mother
    rw [h.link_iff, h'.link_iff, or_assoc]
    simp only [mem_append, or_and_right, exists_or]
    exact or_congr Iff.rfl or_comm
  justified := by
    intro link hlink
    rcases mem_append.mp hlink with hlink | hlink
    · exact h.justified link hlink
    · exact (h'.justified link hlink).imp_left h.path_of_path
  recorded := by
    intro link hlink
    rcases mem_append.mp hlink with hlink | hlink
    · have hkept {pool : UInt32} {map : Int} (hmap : map ≠ -1) (heq : l'.mapId pool = map) :
          l''.mapId pool = map := (h'.mapId_eq pool (heq ▸ hmap)).trans heq
      exact (h.recorded link hlink).imp (fun hchild hmap => hkept hmap (hchild hmap))
        fun hmother hmap => hkept hmap (hmother hmap)
    · exact h'.recorded link hlink
  consistent := h'.consistent ∘ h.consistent

@[simp] theorem propagateMapId_searchMap (l : Loading) (child mother : UInt32) :
    (l.propagateMapId child mother).searchMap = l.searchMap := by
  unfold propagateMapId
  split <;> rfl

@[simp] theorem propagateMapId_entries (l : Loading) (child mother : UInt32) :
    (l.propagateMapId child mother).entries = l.entries := by
  unfold propagateMapId
  split <;> rfl

theorem trims_propagateMapId (hlink : l.MotherLink child mother) :
    Trims l (l.propagateMapId child mother) [] := by
  unfold propagateMapId
  split
  · next hmaps =>
    refine { Trims.refl l with
      mapId_eq := ?_, mapId_below := ?_, recorded := by simp, consistent := ?_ }
    · intro pool hmap
      simp only [setMapId, Function.update_apply]
      split
      · next heq =>
        rw [heq] at hmap
        exact absurd hmaps.2 hmap
      · rfl
    · intro pool
      simp only [setMapId, Function.update_apply]
      split
      · next heq => exact ⟨child, heq ▸ ReflTransGen.single hlink, rfl⟩
      · exact ⟨pool, ReflTransGen.refl, rfl⟩
    · exact fun h => ⟨h.mem_iff, h.nodup⟩
  · exact Trims.refl l

/-- The mother has the map of the pool when the pool has one, or another one. -/
theorem mapId_mother_propagateMapId (hchild : l.mapId child ≠ -1) :
    (l.propagateMapId child mother).mapId mother ≠ -1 := by
  unfold propagateMapId
  split
  · simpa [setMapId] using hchild
  · next hmaps => exact fun hmother => hmaps ⟨hchild, hmother⟩

theorem removeLink_searchMap (l : Loading) (child mother other : UInt32) :
    (l.removeLink child mother).searchMap .pool other =
      if other = child then none else l.searchMap .pool other := by
  simp [removeLink, setSearchMap, setGroup, Function.update_apply]

theorem removeLink_groups (l : Loading) (child mother other : UInt32) :
    (l.removeLink child mother).groups .pool other =
      if other = mother then (l.groups .pool mother).removeOneRelation child
      else l.groups .pool other := by
  simp [removeLink, setSearchMap, setGroup, Function.update_apply]

theorem Consistent.removeLink (h : l.Consistent .pool) (hlink : l.MotherLink child mother) :
    (l.removeLink child mother).Consistent .pool := by
  have hremoved := PoolGroup.removeOneRelation_spec (h.nodup mother) child
  constructor
  · intro pool guid
    rw [removeLink_groups, removeLink_searchMap]
    by_cases hpool : pool = mother
    · subst hpool
      rw [if_pos rfl, hremoved.2, h.mem_iff]
      by_cases hguid : guid = child
      · simp [hguid]
      · simp [hguid]
    · rw [if_neg hpool, h.mem_iff]
      by_cases hguid : guid = child
      · subst hguid
        have hmother : l.searchMap .pool guid = some mother := hlink
        simp [hmother, Ne.symm hpool]
      · simp [hguid]
  · intro pool
    rw [removeLink_groups]
    split
    · exact hremoved.1
    · exact h.nodup pool

theorem trims_removeLink (hlink : l.MotherLink child mother)
    (hjustified : Justified l.MotherLink (l.removedLink child mother)) :
    Trims l (l.removeLink child mother) [l.removedLink child mother] where
  entries_eq := rfl
  spawns_eq := fun t ht => by simp [removeLink, setSearchMap, setGroup, ht]
  mapId_eq := fun _ _ => rfl
  mapId_below := fun pool => ⟨pool, ReflTransGen.refl, rfl⟩
  link_iff := by
    intro child' mother'
    simp only [MotherLink, Link, removeLink_searchMap, mem_singleton, exists_eq_left, removedLink]
    have hmother : l.searchMap .pool child = some mother := hlink
    by_cases hchild : child' = child
    · subst hchild
      simp [hmother]
    · simp [hchild, Ne.symm hchild]
  justified := by simpa using hjustified
  recorded := by
    intro link hlink
    rw [mem_singleton.mp hlink]
    exact ⟨fun _ => rfl, fun _ => rfl⟩
  consistent := fun h => h.removeLink hlink

/-! ### The way up from one pool -/

/-- From a pool the links come to an end, and the map of the pool is there all the way up. -/
structure Settled (l l' : Loading) (pool : UInt32) : Prop where
  rooted : Rooted (l'.searchMap .pool) pool
  mapped : ∀ above, ReflTransGen l'.MotherLink pool above → l.mapId pool ≠ -1 → l'.mapId above ≠ -1

/-- A pool without a mother is settled. -/
theorem Trims.settled_of_none {removed : List RemovedLink} (h : Trims l l' removed)
    (hnone : l'.searchMap .pool pool = none) : Settled l l' pool where
  rooted := rooted_of_none hnone
  mapped := by
    intro above hpath hmap
    rcases hpath.cases_head with rfl | ⟨mother, hlink, -⟩
    · rw [h.mapId_eq pool hmap]
      exact hmap
    · rw [MotherLink, Link, hnone] at hlink
      cases hlink

/-- A pool is settled with the only mother it can have. -/
theorem Trims.settled_of_mother {removed : List RemovedLink} {l₁ : Loading}
    (h : Trims l l' removed) (hlink : l.MotherLink pool mother)
    (hmap : l.mapId pool ≠ -1 → l₁.mapId mother ≠ -1) (hmother : Settled l₁ l' mother) :
    Settled l l' pool where
  rooted := by
    apply Rooted.of_parents
    intro other hother
    have hsame := (h.link_of_link pool other hother).symm.trans hlink
    rw [Option.some.inj hsame]
    exact hmother.rooted
  mapped := by
    intro above hpath hmapped
    rcases hpath.cases_head with rfl | ⟨other, hother, hrest⟩
    · rw [h.mapId_eq pool hmapped]
      exact hmapped
    · have hsame := (h.link_of_link pool other hother).symm.trans hlink
      rw [Option.some.inj hsame] at hrest
      exact hmother.mapped above hrest (hmap hmapped)

/-- What a later part of the pass erases leaves a pool settled. -/
theorem Settled.trims {removed : List RemovedLink} (h : Settled l l' pool)
    (htrims : Trims l' l'' removed) : Settled l l'' pool where
  rooted := h.rooted.mono htrims.link_of_link
  mapped := by
    intro above hpath hmap
    have habove := h.mapped above (htrims.path_of_path hpath) hmap
    rw [htrims.mapId_eq above habove]
    exact habove

/-- Going up from a pool comes to an end and settles the pool. Each of the pools it came from is
another one below it, which bounds the turns. -/
theorem checkChain_spec {checkedPools : Finset UInt32} (hlinked : l.Linked)
    (hchecked : ∀ below ∈ checkedPools, ReflTransGen l.MotherLink below pool)
    (hpool : pool ∉ checkedPools) (hsub : checkedPools ⊆ l.entries)
    (hturns : l.entries.card < turns + checkedPools.card) :
    ∃ l' removed, checkChain turns checkedPools pool l = some (l', removed) ∧
      Trims l l' removed.toList ∧ Settled l l' pool := by
  induction turns generalizing checkedPools pool l with
  | zero =>
    have hcard := Finset.card_le_card hsub
    omega
  | succ turns ih =>
    rw [checkChain]
    cases hmother : l.searchMap .pool pool with
    | none =>
      have htrims := Trims.refl l
      exact ⟨l, none, rfl, htrims, htrims.settled_of_none hmother⟩
    | some mother =>
      have hpropagate := trims_propagateMapId hmother
      have hlinks : (l.propagateMapId pool mother).MotherLink = l.MotherLink := by
        rw [MotherLink, propagateMapId_searchMap]
      -- an erased link leaves the pool without a mother
      have hremove (hjustified : Justified l.MotherLink
          ((l.propagateMapId pool mother).removedLink pool mother)) :
          ∃ l' removed, some ((l.propagateMapId pool mother).removeLink pool mother,
            some ((l.propagateMapId pool mother).removedLink pool mother)) = some (l', removed) ∧
              Trims l l' removed.toList ∧ Settled l l' pool := by
        have hlink : (l.propagateMapId pool mother).MotherLink pool mother := by
          rw [hlinks]
          exact hmother
        have htrims := hpropagate.trans (trims_removeLink hlink (by rwa [hlinks]))
        refine ⟨_, _, rfl, htrims, htrims.settled_of_none ?_⟩
        rw [removeLink_searchMap, if_pos rfl]
      simp only
      split
      · next hmaps =>
        apply hremove
        right
        have hpoolmap : l.mapId pool ≠ -1 := by
          intro hzero
          apply hmaps.1
          rw [propagateMapId, if_neg (by simp [hzero])]
          exact hzero
        exact ⟨hmaps.1, mapId_mother_propagateMapId hpoolmap, Ne.symm hmaps.2⟩
      · split
        · next hcycle =>
          apply hremove
          left
          rcases Finset.mem_insert.mp hcycle with rfl | hbelow
          · exact ReflTransGen.refl
          · exact hchecked mother hbelow
        · next hnew =>
          have hlinked' : (l.propagateMapId pool mother).Linked := by
            intro child' mother' hlink'
            rw [propagateMapId_searchMap] at hlink'
            rw [propagateMapId_entries]
            exact hlinked child' mother' hlink'
          have hchecked' : ∀ below ∈ insert pool checkedPools,
              ReflTransGen (l.propagateMapId pool mother).MotherLink below mother := by
            intro below hbelow
            rw [hlinks]
            rcases Finset.mem_insert.mp hbelow with rfl | hbelow
            · exact ReflTransGen.single hmother
            · exact (hchecked below hbelow).tail hmother
          have hsub' : insert pool checkedPools ⊆ (l.propagateMapId pool mother).entries := by
            rw [propagateMapId_entries]
            exact Finset.insert_subset (hlinked pool mother hmother).1 hsub
          have hturns' : (l.propagateMapId pool mother).entries.card <
              turns + (insert pool checkedPools).card := by
            rw [propagateMapId_entries, Finset.card_insert_of_notMem hpool]
            omega
          obtain ⟨l', removed, hrun, htrims, hsettled⟩ := ih hlinked' hchecked' hnew hsub' hturns'
          have hwhole := hpropagate.trans htrims
          rw [nil_append] at hwhole
          exact ⟨l', removed, hrun, hwhole,
            hwhole.settled_of_mother hmother mapId_mother_propagateMapId hsettled⟩

/-! ### The pass -/

/-- The pass comes to an end and settles every pool. -/
theorem checkCircularReferences_spec (pools : List UInt32) (hlinked : l.Linked)
    (hturns : l.entries.card < turns) :
    ∃ l' removed, checkCircularReferences turns pools l = some (l', removed) ∧
      Trims l l' removed ∧ ∀ pool ∈ pools, Settled l l' pool := by
  induction pools generalizing l with
  | nil => exact ⟨l, [], rfl, Trims.refl l, by simp⟩
  | cons pool pools ih =>
    obtain ⟨l₁, removed, hrun, htrims, hsettled⟩ :=
      checkChain_spec hlinked (by simp) (Finset.notMem_empty pool) (by simp)
        (by simpa using hturns)
    obtain ⟨l', later, hrest, htrims', hsettled'⟩ :=
      ih (htrims.linked hlinked) (by rwa [htrims.entries_eq])
    refine ⟨l', removed.toList ++ later, ?_, htrims.trans htrims', ?_⟩
    · simp [checkCircularReferences, hrun, hrest]
    · rw [forall_mem_cons]
      refine ⟨hsettled.trims htrims', fun other hother => ?_⟩
      have hother' := hsettled' other hother
      refine ⟨hother'.rooted, fun above hpath hmap => ?_⟩
      apply hother'.mapped above hpath
      rw [htrims.mapId_eq other hmap]
      exact hmap

/-- When every pool is settled the links are without a cycle. -/
theorem acyclic_of_settled (hlinked : l'.Linked)
    (hsettled : ∀ pool ∈ l'.entries, Settled l l' pool) : Acyclic (l'.searchMap .pool) := by
  apply acyclic_of_rooted
  intro pool
  cases hmother : l'.searchMap .pool pool with
  | none => exact rooted_of_none hmother
  | some mother => exact (hsettled pool (hlinked pool mother hmother).1).rooted

/-! ### Empty pools -/

theorem exists_of_allEmpty {isEmpty : UInt32 → Option Bool} {objects : List PoolObject}
    {empty : Option Bool} (hempty : empty ≠ some true) (h : allEmpty isEmpty objects = empty) :
    ∃ obj ∈ objects, isEmpty obj.guid = empty := by
  induction objects with
  | nil => exact absurd h.symm hempty
  | cons obj rest ih =>
    rw [allEmpty] at h
    split at h
    · next hobj => exact ⟨obj, mem_cons_self, hobj.trans h⟩
    · next hobj => exact ⟨obj, mem_cons_self, hobj.trans h⟩
    · obtain ⟨obj', hmem, hobj'⟩ := ih h
      exact ⟨obj', mem_cons_of_mem _ hmem, hobj'⟩

/-- A child pool that decides about a pool is linked to it. -/
theorem Consistent.exists_child (h : l.Consistent .pool) {isEmpty : UInt32 → Option Bool}
    {empty : Option Bool} (hempty : empty ≠ some true)
    (hall : allEmpty isEmpty ((l.groups .pool pool).explicitlyChanced ++
      (l.groups .pool pool).equalChanced) = empty) :
    ∃ child, l.MotherLink child pool ∧ isEmpty child = empty := by
  obtain ⟨obj, hobj, hdecides⟩ := exists_of_allEmpty hempty hall
  refine ⟨obj.guid, ?_, hdecides⟩
  apply (h.mem_iff pool obj.guid).mp
  apply mem_map_of_mem
  rw [PoolGroup.objects, mem_append]
  exact (mem_append.mp hobj).symm

/-- `IsEmpty` runs out of levels only where child pools go that deep. -/
theorem Consistent.exists_path (h : l.Consistent .pool) (hnone : l.isEmptyTo depth pool = none) :
    ∃ below, IsPathDown (l.searchMap .pool) (pool :: below) ∧ below.length = depth := by
  induction depth generalizing pool with
  | zero => exact ⟨[], List.IsChain.singleton _, rfl⟩
  | succ depth ih =>
    rw [isEmptyTo] at hnone
    split at hnone
    · cases hnone
    · split at hnone
      · cases hnone
      · obtain ⟨child, hlink, hchild⟩ := h.exists_child (by simp) hnone
        obtain ⟨below, hpath, hlength⟩ := ih hchild
        exact ⟨child :: below, isChain_cons_cons.mpr ⟨hlink, hpath⟩, by simp [hlength]⟩

theorem guids_ne_nil {group : PoolGroup} (h : (!group.isEmpty) = true) : group.guids ≠ [] := by
  simp only [PoolGroup.isEmpty, Bool.not_eq_true', Bool.and_eq_false_iff, isEmpty_eq_false_iff]
    at h
  simp only [PoolGroup.guids, PoolGroup.objects, ne_eq, map_eq_nil_iff, append_eq_nil_iff]
  tauto

/-- A pool that is not empty is above a pool with spawns. -/
theorem Consistent.exists_spawns (h : l.Consistent .pool)
    (hfalse : l.isEmptyTo depth pool = some false) :
    ∃ populated, ReflTransGen l.MotherLink populated pool ∧
      ∃ t, t ≠ .pool ∧ (l.groups t populated).guids ≠ [] := by
  induction depth generalizing pool with
  | zero => cases hfalse
  | succ depth ih =>
    rw [isEmptyTo] at hfalse
    split at hfalse
    · next hgroup => exact ⟨pool, ReflTransGen.refl, .gameobject, by decide, guids_ne_nil hgroup⟩
    · split at hfalse
      · next hgroup => exact ⟨pool, ReflTransGen.refl, .creature, by decide, guids_ne_nil hgroup⟩
      · obtain ⟨child, hlink, hchild⟩ := h.exists_child (by simp) hfalse
        obtain ⟨populated, hpath, hspawns⟩ := ih hchild
        exact ⟨populated, hpath.tail hlink, hspawns⟩

/-- After the pass `IsEmpty` comes to an end, and a pool that is not empty has a map. -/
theorem isEmptyTo_spec (hlinked : l.Linked) (hacyclic : Acyclic (l.searchMap .pool))
    (hconsistent : l.Consistent .pool)
    (hmaps : ∀ populated t, t ≠ .pool → (l.groups t populated).guids ≠ [] →
      ∀ above, ReflTransGen l.MotherLink populated above → l.mapId above ≠ -1)
    (hdepth : l.entries.card < depth) (pool : UInt32) :
    ∃ empty, l.isEmptyTo depth pool = some empty ∧ (empty = false → l.mapId pool ≠ -1) := by
  cases hempty : l.isEmptyTo depth pool with
  | none =>
    obtain ⟨below, hpath, hlength⟩ := hconsistent.exists_path hempty
    have hle := hpath.length_le hacyclic fun child mother hlink => (hlinked child mother hlink).1
    omega
  | some empty =>
    refine ⟨empty, rfl, ?_⟩
    rintro rfl
    obtain ⟨populated, hpath, t, ht, hspawns⟩ := hconsistent.exists_spawns hempty
    exact hmaps populated t ht hspawns pool hpath

/-- Whatever the rows of pools in pools are, one for each pool, and whatever maps the pools have,
the check for circular references comes to an end and does nothing but trim what was loaded: a
link is left or recorded as erased. The links left are without a cycle and the same in the search
map and in the groups; every erased link closed a cycle of the links there were or joined pools
on different maps; and `IsEmpty` comes to an end for every pool and finds none with spawns that
has no map. -/
theorem checkCircularReferences_complete (l : Loading) (hspawns : l.SpawnsLoaded)
    {rows : List PoolMember} (hkey : (rows.map PoolMember.spawnId).Nodup)
    {pools : List UInt32} (hpools : ∀ pool ∈ l.entries, pool ∈ pools)
    {turns : Nat} (hturns : l.entries.card < turns) :
    ∃ l' removed, checkCircularReferences turns pools (l.loadPools rows) = some (l', removed) ∧
      Trims (l.loadPools rows) l' removed ∧ Acyclic (l'.searchMap .pool) ∧
      (∀ mother child, child ∈ (l'.groups .pool mother).guids ↔
        l'.searchMap .pool child = some mother) ∧
      (∀ link ∈ removed,
        Justified (fun child mother => l'.searchMap .pool child = some mother ∨
          ∃ erased ∈ removed, erased.child = child ∧ erased.mother = mother) link) ∧
      ∀ depth, l.entries.card < depth → ∀ pool, ∃ empty,
        l'.isEmptyTo depth pool = some empty ∧ (empty = false → l'.mapId pool ≠ -1) := by
  obtain ⟨hmapped, hlinked, hconsistent⟩ := hspawns.loadPools hkey
  obtain ⟨l', removed, hrun, htrims, hsettled⟩ :=
    checkCircularReferences_spec pools hlinked (by rwa [loadPools_entries])
  have hentries : l'.entries = l.entries := by
    rw [htrims.entries_eq, loadPools_entries]
  have hlinked' := htrims.linked hlinked
  have hall : ∀ pool ∈ l'.entries, Settled (l.loadPools rows) l' pool := by
    intro pool hpool
    rw [hentries] at hpool
    exact hsettled pool (hpools pool hpool)
  have hacyclic := acyclic_of_settled hlinked' hall
  have hlinks : (l.loadPools rows).MotherLink = fun child mother =>
      l'.searchMap .pool child = some mother ∨
        ∃ erased ∈ removed, erased.child = child ∧ erased.mother = mother := by
    funext child mother
    exact propext (htrims.link_iff child mother)
  refine ⟨l', removed, hrun, htrims, hacyclic, (htrims.consistent hconsistent).mem_iff, ?_, ?_⟩
  · intro link hlink
    rw [← hlinks]
    exact htrims.justified link hlink
  · intro depth hdepth pool
    apply isEmptyTo_spec hlinked' hacyclic (htrims.consistent hconsistent) ?_
      (by rw [hentries]; exact hdepth)
    intro populated t ht hguids above hpath
    rw [(htrims.spawns_eq t ht).1] at hguids
    have hmap := hmapped t ht populated hguids
    rcases hpath.cases_head with rfl | ⟨mother, hlink, -⟩
    · rw [htrims.mapId_eq populated hmap]
      exact hmap
    · exact (hall populated (hlinked' populated mother hlink).1).mapped above hpath hmap

/-- Two pools in each other, with a creature each. -/
theorem checkCircularReferences_complete_twoPools :
    ∃ l' removed, checkCircularReferences 3 [1, 2]
        (loadPools
          { entries := {1, 2}
            mapId := fun _ => 0
            groups := fun t _ => if t = .creature then { equalChanced := [⟨10, 0⟩] } else {} }
          [⟨1, 2, 0⟩, ⟨2, 1, 0⟩]) = some (l', removed) ∧
      Trims (loadPools
          { entries := {1, 2}
            mapId := fun _ => 0
            groups := fun t _ => if t = .creature then { equalChanced := [⟨10, 0⟩] } else {} }
          [⟨1, 2, 0⟩, ⟨2, 1, 0⟩]) l' removed ∧
      Acyclic (l'.searchMap .pool) := by
  have hkey : ([⟨1, 2, 0⟩, ⟨2, 1, 0⟩].map PoolMember.spawnId).Nodup := by decide
  have hpools : ∀ pool ∈ ({1, 2} : Finset UInt32), pool ∈ ([1, 2] : List UInt32) := by simp
  have hturns : ({1, 2} : Finset UInt32).card < 3 := Finset.card_le_two.trans_lt (by omega)
  obtain ⟨l', removed, hrun, htrims, hacyclic, -⟩ := checkCircularReferences_complete
    { entries := {1, 2}
      mapId := fun _ => 0
      groups := fun t _ => if t = .creature then { equalChanced := [⟨10, 0⟩] } else {} }
    ⟨fun _ _ _ _ => by simp, fun _ => rfl, fun _ => rfl⟩ hkey hpools hturns
  exact ⟨l', removed, hrun, htrims, hacyclic⟩

/-! ### What is loaded -/

/-- `PoolMgr::LoadFromDB`, with the pools in the order `mPoolTemplate` has them. -/
def loadFromDB (turns : Nat) (pools : List UInt32) (creatureData : UInt32 → Option UInt16)
    (gameObjectData : UInt32 → Option (UInt16 × Nat)) (templates : List (UInt32 × UInt32))
    (creatures gameObjects rows : List PoolMember) : Option (Loading × List RemovedLink) :=
  checkCircularReferences turns pools
    ((loadSpawns creatureData gameObjectData templates creatures gameObjects).loadPools rows)

section

variable {pools : List UInt32} {creatureData : UInt32 → Option UInt16}
  {gameObjectData : UInt32 → Option (UInt16 × Nat)} {templates : List (UInt32 × UInt32)}
  {creatures gameObjects rows : List PoolMember}
  (hcreatures : (creatures.map PoolMember.spawnId).Nodup)
  (hgameObjects : (gameObjects.map PoolMember.spawnId).Nodup)
  (hkey : (rows.map PoolMember.spawnId).Nodup)
  (hpools : ∀ pool ∈ (loadSpawns creatureData gameObjectData templates creatures
    gameObjects).entries, pool ∈ pools)
  (hturns : (loadSpawns creatureData gameObjectData templates creatures
    gameObjects).entries.card < turns)
include hcreatures hgameObjects hkey hpools hturns

/-- What is loaded is a manager of pools: every member is in one pool and the pools have ranks. -/
theorem exists_poolMgr_of_loadFromDB :
    ∃ l removed, loadFromDB turns pools creatureData gameObjectData templates creatures gameObjects
        rows = some (l, removed) ∧
      ∃ m : PoolMgr, m.maxLimit = l.maxLimit ∧ m.groups = l.groups ∧ m.searchMap = l.searchMap := by
  have hspawns := loadSpawns_spec creatureData gameObjectData templates hcreatures hgameObjects
  obtain ⟨-, hlinked, hpool⟩ := hspawns.1.loadPools hkey
  obtain ⟨l, removed, hrun, htrims, hsettled⟩ :=
    checkCircularReferences_spec pools hlinked (by rwa [loadPools_entries])
  have hlinked' := htrims.linked hlinked
  have hacyclic : Acyclic (l.searchMap .pool) := by
    apply acyclic_of_settled hlinked'
    intro pool hentry
    rw [htrims.entries_eq, loadPools_entries] at hentry
    exact hsettled pool (hpools pool hentry)
  have hconsistent (t : MemberType) : l.Consistent t := by
    have hrows := hspawns.1.consistent_loadPools hkey (hspawns.2 t)
    by_cases ht : t = .pool
    · subst ht
      exact htrims.consistent hpool
    · obtain ⟨hgroups, hsearch⟩ := htrims.spawns_eq t ht
      constructor
      · intro pool guid
        rw [hgroups, hsearch]
        exact hrows.mem_iff pool guid
      · intro pool
        rw [hgroups]
        exact hrows.nodup pool
  obtain ⟨rank, hrank⟩ := exists_rank hacyclic fun child mother hlink =>
    (hlinked' child mother hlink).1
  refine ⟨l, removed, hrun, ?_⟩
  refine ⟨⟨l.maxLimit, l.groups, l.searchMap, rank, ?_, ?_, ?_, hrank⟩, rfl, rfl, rfl⟩
  · intro t pool obj hobj
    exact ((hconsistent t).mem_iff pool obj.guid).mp (mem_map_of_mem hobj)
  · intro t guid pool hsearch
    exact ((hconsistent t).mem_iff pool guid).mpr hsearch
  · exact fun t pool => (hconsistent t).nodup pool

/-- Whatever cycles the tables hold, loading comes to an end, and the counters of what it loaded
stay exact and within their limits through every run of operations. -/
theorem loadFromDB_runs_sound :
    ∃ l removed, loadFromDB turns pools creatureData gameObjectData templates creatures gameObjects
        rows = some (l, removed) ∧
      ∃ m : PoolMgr, (m.maxLimit = l.maxLimit ∧ m.groups = l.groups ∧ m.searchMap = l.searchMap) ∧
        ∀ (random : Random) (events : List Op),
          StateMachine.Admits (m.step random) m.Called {} events →
            m.Sound (StateMachine.run (m.step random) {} events) := by
  obtain ⟨l, removed, hload, m, hloaded⟩ :=
    exists_poolMgr_of_loadFromDB hcreatures hgameObjects hkey hpools hturns
  refine ⟨l, removed, hload, m, hloaded, fun random events hcalled => ?_⟩
  exact StateMachine.run_invariant_of_admits m.sound_empty (fun _ op h hop => h.step op hop) events
    hcalled

end

/-- Two pools in each other, with a creature each. -/
theorem loadFromDB_runs_sound_twoPools :
    ∃ l removed, loadFromDB 3 [1, 2] (fun _ => some 0) (fun _ => none) [(1, 1), (2, 1)]
        [⟨10, 1, 0⟩, ⟨11, 2, 0⟩] [] [⟨1, 2, 0⟩, ⟨2, 1, 0⟩] = some (l, removed) ∧
      ∃ m : PoolMgr, (m.maxLimit = l.maxLimit ∧ m.groups = l.groups ∧ m.searchMap = l.searchMap) ∧
        ∀ (random : Random) (events : List Op),
          StateMachine.Admits (m.step random) m.Called {} events →
            m.Sound (StateMachine.run (m.step random) {} events) := by
  have hentries : (loadSpawns (fun _ => some 0) (fun _ => none) [(1, 1), (2, 1)]
      [⟨10, 1, 0⟩, ⟨11, 2, 0⟩] []).entries = {1, 2} := by decide
  exact loadFromDB_runs_sound (by decide) (by decide) (by decide)
    (by rw [hentries]; simp) (by rw [hentries]; decide)

end Loading
end TrinityCore.Pools
