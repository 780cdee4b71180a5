import TrinityCore.Instances.BossStates

/-!
# Spawn groups follow the bosses

The rows of a spawn group are folded into one of three values: a row that blocks is final, and a
row that activates counts against rows that do neither. The order of the rows is irrelevant.
-/

namespace TrinityCore.Instances

open List Std.ExtTreeMap

variable {script : InstanceScript} {creatures : ObjectGuid → Option Creature}

namespace InstanceMap

variable {map : InstanceMap} {groupId g : UInt32} {doSpawn : Bool}

/-- A spawn group that can be switched. -/
def HasSpawnGroup (map : InstanceMap) (groupId : UInt32) : Prop :=
  ∃ data, map.spawnGroupData groupId = some data ∧ data.system = false

/-- What the spawn groups do not write. -/
structure SameObjects (before after : InstanceMap) : Prop where
  gameObjects : after.gameObjects = before.gameObjects
  team : after.teamIdInInstance = before.teamIdInInstance
  spawnGroupData : after.spawnGroupData = before.spawnGroupData

theorem sameObjects_spawnOrDisable (map : InstanceMap) (groupId : UInt32) (doSpawn : Bool) :
    SameObjects map (map.spawnOrDisable groupId doSpawn) := by
  unfold spawnOrDisable setSpawnGroupActive
  split
  · exact ⟨rfl, rfl, rfl⟩
  · split
    · exact ⟨rfl, rfl, rfl⟩
    · split
      · exact ⟨rfl, rfl, rfl⟩
      · split <;> exact ⟨rfl, rfl, rfl⟩

theorem sameObjects_foldl (map : InstanceMap) {α : Type} (pairs : List (UInt32 × α))
    (doSpawn : α → Bool) :
    SameObjects map
      (pairs.foldl (fun map pair => map.spawnOrDisable pair.1 (doSpawn pair.2)) map) := by
  induction pairs generalizing map with
  | nil => exact ⟨rfl, rfl, rfl⟩
  | cons pair pairs ih =>
    have hpair := sameObjects_spawnOrDisable map pair.1 (doSpawn pair.2)
    have hrest := ih (map.spawnOrDisable pair.1 (doSpawn pair.2))
    exact ⟨hrest.gameObjects.trans hpair.gameObjects, hrest.team.trans hpair.team,
      hrest.spawnGroupData.trans hpair.spawnGroupData⟩

/-- The group that is switched gets the state wanted. -/
theorem isSpawnGroupActive_spawnOrDisable_self (h : map.HasSpawnGroup groupId) :
    (map.spawnOrDisable groupId doSpawn).isSpawnGroupActive groupId = doSpawn := by
  obtain ⟨data, hdata, hsystem⟩ := h
  unfold spawnOrDisable
  split
  · next heq => exact eq_of_beq heq
  · unfold setSpawnGroupActive isSpawnGroupActive
    simp only [hdata, hsystem, Bool.false_eq_true, if_false]
    cases hmanual : data.manualSpawn <;> cases doSpawn <;> simp [hdata, hsystem, hmanual]

/-- No other group is switched. -/
theorem isSpawnGroupActive_spawnOrDisable_of_ne (h : g ≠ groupId) :
    (map.spawnOrDisable groupId doSpawn).isSpawnGroupActive g = map.isSpawnGroupActive g := by
  unfold spawnOrDisable
  split
  · rfl
  · unfold setSpawnGroupActive
    split
    · rfl
    · split
      · rfl
      · split
        · unfold isSpawnGroupActive
          simp [h]
        · unfold isSpawnGroupActive
          simp [h]

/-- A loop that switches a group only to one state leaves it there. -/
theorem isSpawnGroupActive_foldl {α : Type} {pairs : List (UInt32 × α)} {wanted : α → Bool}
    (hgroup : map.HasSpawnGroup g) (hmem : ∃ pair ∈ pairs, pair.1 = g)
    (hwanted : ∀ pair ∈ pairs, pair.1 = g → wanted pair.2 = doSpawn) :
    (pairs.foldl (fun map pair => map.spawnOrDisable pair.1 (wanted pair.2))
      map).isSpawnGroupActive g = doSpawn := by
  induction pairs using reverseRecOn with
  | nil =>
    obtain ⟨_, hnil, -⟩ := hmem
    cases hnil
  | append_singleton pairs pair ih =>
    rw [foldl_append, foldl_cons, foldl_nil]
    by_cases heq : pair.1 = g
    · have hlast : wanted pair.2 = doSpawn := hwanted pair (by simp) heq
      have hsame := (sameObjects_foldl map pairs wanted).spawnGroupData
      rw [hlast, ← heq]
      apply isSpawnGroupActive_spawnOrDisable_self
      unfold HasSpawnGroup at hgroup ⊢
      rw [hsame, heq]
      exact hgroup
    · rw [isSpawnGroupActive_spawnOrDisable_of_ne (Ne.symm heq)]
      apply ih
      · obtain ⟨other, hother, hg⟩ := hmem
        cases mem_append.mp hother with
        | inl hbefore => exact ⟨other, hbefore, hg⟩
        | inr hlast => exact absurd hg (mem_singleton.mp hlast ▸ heq)
      · intro other hother
        exact hwanted other (mem_append_left _ hother)

/-- A loop about other groups leaves a group alone. -/
theorem isSpawnGroupActive_foldl_of_ne {α : Type} {pairs : List (UInt32 × α)} {wanted : α → Bool}
    (hne : ∀ pair ∈ pairs, pair.1 ≠ g) :
    (pairs.foldl (fun map pair => map.spawnOrDisable pair.1 (wanted pair.2))
      map).isSpawnGroupActive g = map.isSpawnGroupActive g := by
  induction pairs generalizing map with
  | nil => rfl
  | cons pair pairs ih =>
    rw [foldl_cons, ih fun other hother => hne other (mem_cons_of_mem _ hother)]
    exact isSpawnGroupActive_spawnOrDisable_of_ne (hne pair mem_cons_self).symm

end InstanceMap

variable {rows : List InstanceSpawnGroupInfo}

namespace InstanceScript

/-- A row of the group that says it is to be active. -/
def Activates (script : InstanceScript) (rows : List InstanceSpawnGroupInfo) (groupId : UInt32) :
    Prop :=
  ∃ info ∈ rows, info.spawnGroupId = groupId ∧ script.isApplicable info = true ∧
    info.hasFlag 0x01 = true

/-- A row of the group that keeps it from being active. -/
def Blocks (script : InstanceScript) (rows : List InstanceSpawnGroupInfo) (groupId : UInt32) :
    Prop :=
  ∃ info ∈ rows, info.spawnGroupId = groupId ∧ script.isApplicable info = true ∧
    info.hasFlag 0x02 = true

/-- Every spawn group that has a row is active exactly when a row activates it and none blocks
it. -/
def SpawnGroupsReflect (script : InstanceScript) : Prop :=
  ∀ groupId, (∃ info ∈ script.instanceSpawnGroups, info.spawnGroupId = groupId) →
    (script.map.isSpawnGroupActive groupId = true ↔
      script.Activates script.instanceSpawnGroups groupId ∧
        ¬script.Blocks script.instanceSpawnGroups groupId)

/-- The rows are about spawn groups that can be switched. -/
def RowsLoaded (script : InstanceScript) : Prop :=
  ∀ info ∈ script.instanceSpawnGroups, script.map.HasSpawnGroup info.spawnGroupId

theorem activates_concat (rows : List InstanceSpawnGroupInfo) (info : InstanceSpawnGroupInfo)
    (groupId : UInt32) :
    script.Activates (rows ++ [info]) groupId ↔
      script.Activates rows groupId ∨ info.spawnGroupId = groupId ∧
        script.isApplicable info = true ∧ info.hasFlag 0x01 = true := by
  unfold Activates
  simp [or_and_right, exists_or]

theorem blocks_concat (rows : List InstanceSpawnGroupInfo) (info : InstanceSpawnGroupInfo)
    (groupId : UInt32) :
    script.Blocks (rows ++ [info]) groupId ↔
      script.Blocks rows groupId ∨ info.spawnGroupId = groupId ∧
        script.isApplicable info = true ∧ info.hasFlag 0x02 = true := by
  unfold Blocks
  simp [or_and_right, exists_or]

/-- What the loop over some rows knows of a group. -/
structure ValueOf (script : InstanceScript) (rows : List InstanceSpawnGroupInfo)
    (groupId : UInt32) (value : SpawnState) : Prop where
  forceBlock : value = .forceBlock ↔ script.Blocks rows groupId
  spawn : value = .spawn ↔ script.Activates rows groupId ∧ ¬script.Blocks rows groupId

theorem valueOf_nil (groupId : UInt32) : ValueOf script [] groupId .block :=
  ⟨by simp [Blocks], by simp [Activates]⟩

/-- A row of the group moves the value, and any other row leaves it. -/
theorem ValueOf.concat {groupId : UInt32} {value : SpawnState}
    (h : ValueOf script rows groupId value) (info : InstanceSpawnGroupInfo) :
    ValueOf script (rows ++ [info]) groupId
      (if info.spawnGroupId = groupId then script.nextSpawnState info value else value) := by
  obtain ⟨hforce, hspawn⟩ := h
  constructor
  · rw [blocks_concat, ← hforce]
    unfold nextSpawnState
    grind
  · rw [activates_concat, blocks_concat]
    unfold nextSpawnState
    grind

/-- The value that the loop has for a group. -/
theorem valueOf_foldl (script : InstanceScript) (rows : List InstanceSpawnGroupInfo)
    (groupId : UInt32) :
    ValueOf script rows groupId ((rows.foldl script.updateNewStates ∅).getD groupId .block) := by
  induction rows using reverseRecOn with
  | nil => exact valueOf_nil groupId
  | append_singleton rows info ih =>
    rw [foldl_append, foldl_cons, foldl_nil]
    generalize rows.foldl script.updateNewStates ∅ = newStates at ih ⊢
    have hvalue : (script.updateNewStates newStates info).getD groupId .block =
        if info.spawnGroupId = groupId
          then script.nextSpawnState info (newStates.getD groupId .block)
          else newStates.getD groupId .block := by
      unfold updateNewStates
      rw [getD_insert]
      by_cases h : info.spawnGroupId = groupId
      · rw [if_pos h, if_pos (Std.LawfulEqCmp.compare_eq_iff_eq.mpr h), h]
      · rw [if_neg h, if_neg fun heq => h (Std.LawfulEqCmp.compare_eq_iff_eq.mp heq)]
    rw [hvalue]
    exact ih.concat info

/-- The loop has a value for the groups that have a row. -/
theorem mem_foldl_updateNewStates (script : InstanceScript) (rows : List InstanceSpawnGroupInfo)
    (groupId : UInt32) :
    groupId ∈ rows.foldl script.updateNewStates ∅ ↔
      ∃ info ∈ rows, info.spawnGroupId = groupId := by
  induction rows using reverseRecOn with
  | nil => simp
  | append_singleton rows info ih =>
    rw [foldl_append, foldl_cons, foldl_nil]
    unfold updateNewStates at ih ⊢
    rw [mem_insert, ih, Std.LawfulEqCmp.compare_eq_iff_eq]
    simp [or_comm, or_and_right, exists_or]

/-- A pair of the map that the loop makes. -/
theorem of_mem_toList {pair : UInt32 × SpawnState}
    (h : pair ∈ (rows.foldl script.updateNewStates ∅).toList) :
    (∃ info ∈ rows, info.spawnGroupId = pair.1) ∧ ValueOf script rows pair.1 pair.2 := by
  have hget := mem_toList_iff_getElem?_eq_some.mp h
  constructor
  · rw [← mem_foldl_updateNewStates script]
    exact mem_iff_isSome_getElem?.mpr (by rw [hget]; rfl)
  · have hvalue := valueOf_foldl script rows pair.1
    rwa [getD_eq_getD_getElem?, hget] at hvalue

/-! ### The groups after the loop -/

theorem sameObjects_updateSpawnGroups (script : InstanceScript) :
    InstanceMap.SameObjects script.map script.updateSpawnGroups.map :=
  InstanceMap.sameObjects_foldl script.map _ fun value => value == SpawnState.spawn

theorem isApplicable_updateSpawnGroups (script : InstanceScript) :
    script.updateSpawnGroups.isApplicable = script.isApplicable := by
  unfold isApplicable
  rw [(sameObjects_updateSpawnGroups script).team]
  rfl

/-- A group that has a row is switched by its rows. -/
theorem isSpawnGroupActive_updateSpawnGroups {groupId : UInt32}
    (hgroup : script.map.HasSpawnGroup groupId)
    (hrow : ∃ info ∈ script.instanceSpawnGroups, info.spawnGroupId = groupId) :
    script.updateSpawnGroups.map.isSpawnGroupActive groupId = true ↔
      script.Activates script.instanceSpawnGroups groupId ∧
        ¬script.Blocks script.instanceSpawnGroups groupId := by
  have hvalue := valueOf_foldl script script.instanceSpawnGroups groupId
  have hactive : script.updateSpawnGroups.map.isSpawnGroupActive groupId =
      ((script.instanceSpawnGroups.foldl script.updateNewStates ∅).getD groupId .block ==
        .spawn) := by
    apply @InstanceMap.isSpawnGroupActive_foldl script.map groupId _ SpawnState _
      (fun value => value == SpawnState.spawn) hgroup
    · obtain ⟨value, hget⟩ := Option.isSome_iff_exists.mp
        (mem_iff_isSome_getElem?.mp
          ((mem_foldl_updateNewStates script _ groupId).mpr hrow))
      exact ⟨(groupId, value), mem_toList_iff_getElem?_eq_some.mpr hget, rfl⟩
    · intro pair hpair heq
      have hget := mem_toList_iff_getElem?_eq_some.mp hpair
      rw [heq] at hget
      rw [getD_eq_getD_getElem?, hget, Option.getD_some]
  rw [hactive, beq_iff_eq, hvalue.spawn]

theorem isSpawnGroupActive_updateSpawnGroups_of_not {groupId : UInt32}
    (hrow : ¬∃ info ∈ script.instanceSpawnGroups, info.spawnGroupId = groupId) :
    script.updateSpawnGroups.map.isSpawnGroupActive groupId =
      script.map.isSpawnGroupActive groupId := by
  apply @InstanceMap.isSpawnGroupActive_foldl_of_ne script.map groupId SpawnState _
    (fun value => value == SpawnState.spawn)
  intro pair hpair heq
  exact hrow (heq ▸ (of_mem_toList hpair).1)

theorem spawnGroupsReflect_updateSpawnGroups (h : RowsLoaded script) :
    SpawnGroupsReflect script.updateSpawnGroups := by
  intro groupId hrow
  have hgroup : script.map.HasSpawnGroup groupId := by
    obtain ⟨info, hinfo, rfl⟩ := hrow
    exact h info hinfo
  unfold Activates Blocks
  rw [isApplicable_updateSpawnGroups]
  exact isSpawnGroupActive_updateSpawnGroups hgroup hrow

/-- The order of the rows makes no difference to any group. -/
theorem isSpawnGroupActive_of_perm (h : RowsLoaded script)
    (hperm : rows.Perm script.instanceSpawnGroups) (groupId : UInt32) :
    { script with instanceSpawnGroups := rows }.updateSpawnGroups.map.isSpawnGroupActive
      groupId = script.updateSpawnGroups.map.isSpawnGroupActive groupId := by
  have hmem : ∀ info, info ∈ rows ↔ info ∈ script.instanceSpawnGroups := fun info => hperm.mem_iff
  by_cases hrow : ∃ info ∈ script.instanceSpawnGroups, info.spawnGroupId = groupId
  · have hgroup : script.map.HasSpawnGroup groupId := by
      obtain ⟨info, hinfo, rfl⟩ := hrow
      exact h info hinfo
    have hrow' : ∃ info ∈ rows, info.spawnGroupId = groupId := by simpa only [hmem] using hrow
    have hactive := isSpawnGroupActive_updateSpawnGroups hgroup hrow
    have hactive' := @isSpawnGroupActive_updateSpawnGroups
      { script with instanceSpawnGroups := rows } groupId hgroup hrow'
    apply Bool.eq_iff_iff.mpr
    rw [hactive, hactive']
    unfold Activates Blocks
    simp only [hmem]
    rfl
  · have hrow' : ¬∃ info ∈ rows, info.spawnGroupId = groupId := by simpa only [hmem] using hrow
    rw [isSpawnGroupActive_updateSpawnGroups_of_not hrow]
    exact @isSpawnGroupActive_updateSpawnGroups_of_not
      { script with instanceSpawnGroups := rows } groupId hrow'

end InstanceScript

end TrinityCore.Instances
