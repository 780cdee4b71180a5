import TrinityCore.Instances.SpawnGroups
import TrinityCore.Lib.TreeMapLists

/-!
# Doors follow the bosses

A change of a boss refreshes the doors filed under it and no others. Every door of the map is
filed under the bosses of all its rules, so a door that is not refreshed has rules about other
bosses only.
-/

namespace TrinityCore.Instances

open Option TreeMapLists

variable {script : InstanceScript} {creatures : ObjectGuid → Option Creature}

variable {after before : InstanceScript} {id : Nat} {state : EncounterState}
  {result : InstanceScript × Bool}

namespace InstanceScript

/-- Every registered door of the map is open exactly when all its rules hold. -/
def DoorsReflect (script : InstanceScript) : Prop :=
  ∀ (guid : ObjectGuid) (go : GameObject), script.map.gameObjects[guid]? = some go →
    script.doorRange go.entry ≠ [] →
    (go.goState = .active ↔ ∀ info ∈ script.doorRange go.entry, script.allowsOpen info = true)

/-- Every object of the map is filed under the bosses of all its rules. -/
def Filed (script : InstanceScript) : Prop :=
  ∀ (guid : ObjectGuid) (go : GameObject), script.map.gameObjects[guid]? = some go →
    ∀ info ∈ script.doorRange go.entry, ∀ bossInfo, script.bosses[info.bossInfo]? = some bossInfo → guid ∈ bossInfo.door info.type

/-- The map has no registered doors. -/
def NoDoors (script : InstanceScript) : Prop :=
  ∀ (guid : ObjectGuid) (go : GameObject), script.map.gameObjects[guid]? = some go →
    script.doorRange go.entry = []

theorem NoDoors.filed (h : NoDoors script) : Filed script := by
  intro guid go hgo info hinfo
  rw [h guid go hgo] at hinfo
  cases hinfo

theorem NoDoors.doorsReflect (h : NoDoors script) : DoorsReflect script :=
  fun guid go hgo hne => absurd (h guid go hgo) hne

/-! ### The state of one door -/

/-- The loop over the rules stops early and still asks for all of them. -/
theorem doorOpen_iff (script : InstanceScript) (range : List DoorInfo) :
    script.doorOpen range = true ↔ ∀ info ∈ range, script.allowsOpen info = true := by
  have hloop : ∀ isOpen : Bool,
      range.foldl (fun isOpen info => if isOpen then script.allowsOpen info else isOpen) isOpen =
        true ↔ isOpen = true ∧ ∀ info ∈ range, script.allowsOpen info = true := by
    induction range with
    | nil => simp
    | cons info range ih =>
      intro isOpen
      rw [List.foldl_cons, ih, List.forall_mem_cons]
      cases isOpen <;> simp
  unfold doorOpen
  rw [hloop true]
  exact and_iff_right rfl

/-- A door as `UpdateDoorState` leaves it. -/
def refreshed (script : InstanceScript) (go : GameObject) : GameObject :=
  if (script.doorRange go.entry).isEmpty then go
  else { go with goState :=
    if script.doorOpen (script.doorRange go.entry) then .active else .ready }

@[simp] theorem entry_refreshed (go : GameObject) : (script.refreshed go).entry = go.entry := by
  unfold refreshed
  split <;> rfl

theorem goState_refreshed {go : GameObject} (h : script.doorRange go.entry ≠ []) :
    (script.refreshed go).goState = .active ↔
      ∀ info ∈ script.doorRange go.entry, script.allowsOpen info = true := by
  rw [← doorOpen_iff]
  unfold refreshed
  rw [if_neg (by simpa using h)]
  split <;> simp [*]

theorem refreshed_refreshed (go : GameObject) :
    script.refreshed (script.refreshed go) = script.refreshed go := by
  unfold refreshed
  split
  · rfl
  · rfl

/-- Two scripts with the same rules and the same states of the bosses. -/
structure SameRules (before after : InstanceScript) : Prop where
  doors : after.doors = before.doors
  states : ∀ id, after.getBossState id = before.getBossState id

theorem SameRules.trans {a b c : InstanceScript} (h : SameRules a b) (h' : SameRules b c) :
    SameRules a c :=
  ⟨h'.doors.trans h.doors, fun id => (h'.states id).trans (h.states id)⟩

theorem SameBosses.sameRules (h : SameBosses before after) : SameRules before after :=
  ⟨h.doors, h.getBossState⟩

theorem SameRules.doorRange (h : SameRules before after) : after.doorRange = before.doorRange := by
  unfold InstanceScript.doorRange
  rw [h.doors]

theorem SameRules.allowsOpen (h : SameRules before after) :
    after.allowsOpen = before.allowsOpen := by
  unfold InstanceScript.allowsOpen
  simp only [h.states]

theorem SameRules.refreshed (h : SameRules before after) : after.refreshed = before.refreshed := by
  unfold InstanceScript.refreshed doorOpen
  rw [h.doorRange, h.allowsOpen]

theorem gameObjects_updateDoorState (script : InstanceScript) (guid g : ObjectGuid) :
    (script.updateDoorState guid).map.gameObjects[g]? =
      if g = guid then script.map.gameObjects[g]?.map script.refreshed
      else script.map.gameObjects[g]? := by
  unfold updateDoorState
  cases hgo : script.map.gameObjects[guid]? with
  | none =>
    dsimp only
    split
    · next h => rw [h, hgo, map_none]
    · rfl
  | some go =>
    dsimp only
    split
    · next hempty =>
      split
      · next h =>
        rw [h, hgo, map_some]
        unfold refreshed
        rw [if_pos hempty]
      · rfl
    · next hempty =>
      unfold InstanceMap.setGoState
      dsimp only
      rw [getElem?_modify_eq]
      split
      · next h =>
        rw [h, hgo, map_some, map_some]
        unfold refreshed
        rw [if_neg hempty]
      · rfl

/-- A loop over doors refreshes these doors. -/
theorem gameObjects_updateDoorStates (script : InstanceScript) (guids : List ObjectGuid)
    (g : ObjectGuid) :
    (guids.foldl updateDoorState script).map.gameObjects[g]? =
      if g ∈ guids then script.map.gameObjects[g]?.map script.refreshed
      else script.map.gameObjects[g]? := by
  induction guids generalizing script with
  | nil => rfl
  | cons guid guids ih =>
    rw [List.foldl_cons, ih, (sameBosses_updateDoorState script guid).sameRules.refreshed,
      gameObjects_updateDoorState]
    by_cases h : g = guid
    · subst h
      rw [if_pos rfl, if_pos List.mem_cons_self, map_map]
      have hidem : script.refreshed ∘ script.refreshed = script.refreshed :=
        funext refreshed_refreshed
      rw [hidem, ite_self]
    · rw [if_neg h]
      simp [h]

/-! ### The doors filed under the bosses -/

theorem bosses_modifyDoors (script : InstanceScript) (info : DoorInfo) (f : GuidSet → GuidSet)
    (b : Nat) :
    (script.modifyDoors info f).bosses[b]? = script.bosses[b]?.map fun bossInfo =>
      { bossInfo with
        door := fun type => if (⟨b, type⟩ : DoorInfo) = info then f (bossInfo.door type)
          else bossInfo.door type } := by
  unfold modifyDoors
  dsimp only
  rw [List.getElem?_modify]
  cases script.bosses[b]? with
  | none => rfl
  | some bossInfo =>
    obtain ⟨id, type'⟩ := info
    by_cases h : id = b
    · subst h
      simp
    · have hne : ∀ type, (⟨b, type⟩ : DoorInfo) ≠ ⟨id, type'⟩ := fun type heq =>
        h (DoorInfo.mk.inj heq).1.symm
      simp [h, hne]

/-- The loop of `AddDoor` writes the sets of all rules of the door. -/
theorem bosses_foldl_modifyDoors (script : InstanceScript) (range : List DoorInfo)
    {f : GuidSet → GuidSet} (hf : ∀ guids, f (f guids) = f guids) (b : Nat) :
    (range.foldl (fun script info => script.modifyDoors info f) script).bosses[b]? =
      script.bosses[b]?.map fun bossInfo =>
        { bossInfo with
          door := fun type => if (⟨b, type⟩ : DoorInfo) ∈ range then f (bossInfo.door type)
            else bossInfo.door type } := by
  induction range generalizing script with
  | nil => simp
  | cons info range ih =>
    rw [List.foldl_cons, ih, bosses_modifyDoors, map_map]
    congr 1
    funext bossInfo
    simp only [Function.comp_apply, BossInfo.mk.injEq, true_and, and_true]
    funext type
    by_cases hfirst : (⟨b, type⟩ : DoorInfo) = info
    · subst hfirst
      by_cases hrest : (⟨b, type⟩ : DoorInfo) ∈ range <;> simp [hrest, hf]
    · simp [hfirst]

/-- What `AddDoor` does not write. -/
structure SameMap (before after : InstanceScript) : Prop where
  map : after.map = before.map
  doors : after.doors = before.doors
  rows : after.instanceSpawnGroups = before.instanceSpawnGroups

theorem sameMap_foldl_modifyDoors (script : InstanceScript) (range : List DoorInfo)
    (f : GuidSet → GuidSet) :
    SameMap script (range.foldl (fun script info => script.modifyDoors info f) script) := by
  induction range generalizing script with
  | nil => exact ⟨rfl, rfl, rfl⟩
  | cons info range ih =>
    have h := ih (script.modifyDoors info f)
    exact ⟨h.map, h.doors, h.rows⟩

theorem sameRules_foldl_modifyDoors (script : InstanceScript) (range : List DoorInfo)
    (f : GuidSet → GuidSet) (hf : ∀ guids, f (f guids) = f guids) :
    SameRules script (range.foldl (fun script info => script.modifyDoors info f) script) := by
  refine ⟨(sameMap_foldl_modifyDoors script range f).doors, fun b => ?_⟩
  unfold getBossState
  rw [bosses_foldl_modifyDoors script range hf]
  cases script.bosses[b]? <;> rfl

theorem insert_insert_self (guid : ObjectGuid) (guids : GuidSet) :
    (guids.insert guid).insert guid = guids.insert guid := by
  ext g
  simp

theorem erase_erase_self (guid : ObjectGuid) (guids : GuidSet) :
    (guids.erase guid).erase guid = guids.erase guid := by
  ext g
  simp

/-! ### Events -/

theorem sameRules_onGameObjectCreate (script : InstanceScript) (guid : ObjectGuid)
    (go : GameObject) : SameRules script (script.onGameObjectCreate guid go) := by
  have hfold := sameRules_foldl_modifyDoors script (script.doorRange go.entry)
    (·.insert guid) (insert_insert_self guid)
  unfold onGameObjectCreate
  dsimp only
  generalize (script.doorRange go.entry).foldl
    (fun script info => script.modifyDoors info (·.insert guid)) script = filed at hfold ⊢
  have hput : SameRules filed { filed with map := { filed.map with
      gameObjects := filed.map.gameObjects.insert guid go } } := ⟨rfl, fun _ => rfl⟩
  exact (hfold.trans hput).trans (sameBosses_updateDoorState _ guid).sameRules

theorem gameObjects_onGameObjectCreate (script : InstanceScript) (guid : ObjectGuid)
    (go : GameObject) (g : ObjectGuid) :
    (script.onGameObjectCreate guid go).map.gameObjects[g]? =
      if g = guid then some (script.refreshed go) else script.map.gameObjects[g]? := by
  have hmap := (sameMap_foldl_modifyDoors script (script.doorRange go.entry) (·.insert guid)).map
  have hfold := sameRules_foldl_modifyDoors script (script.doorRange go.entry)
    (·.insert guid) (insert_insert_self guid)
  unfold onGameObjectCreate
  dsimp only
  generalize (script.doorRange go.entry).foldl
    (fun script info => script.modifyDoors info (·.insert guid)) script = filed at hmap hfold ⊢
  have hrefreshed : ({ filed with map := { filed.map with
      gameObjects := filed.map.gameObjects.insert guid go } } : InstanceScript).refreshed =
      script.refreshed := hfold.refreshed
  rw [gameObjects_updateDoorState, hrefreshed]
  dsimp only
  simp only [getElem?_insert_eq, if_true, map_some, hmap]
  split
  · rfl
  · rfl

theorem bosses_onGameObjectCreate (script : InstanceScript) (guid : ObjectGuid)
    (go : GameObject) (b : Nat) :
    (script.onGameObjectCreate guid go).bosses[b]? = script.bosses[b]?.map fun bossInfo =>
      { bossInfo with
        door := fun type => if (⟨b, type⟩ : DoorInfo) ∈ script.doorRange go.entry
          then (bossInfo.door type).insert guid else bossInfo.door type } := by
  unfold onGameObjectCreate
  dsimp only
  rw [(sameBosses_updateDoorState _ _).bosses]
  exact bosses_foldl_modifyDoors script _ (insert_insert_self guid) b

/-- A door that appears is filed and refreshed. -/
theorem doors_onGameObjectCreate (hfiled : Filed script) (hreflect : DoorsReflect script)
    (guid : ObjectGuid) (go : GameObject) :
    Filed (script.onGameObjectCreate guid go) ∧
      DoorsReflect (script.onGameObjectCreate guid go) := by
  have hsame := sameRules_onGameObjectCreate script guid go
  constructor
  · intro g go' hgo' info hinfo bossInfo' hboss'
    rw [gameObjects_onGameObjectCreate] at hgo'
    rw [hsame.doorRange] at hinfo
    rw [bosses_onGameObjectCreate] at hboss'
    obtain ⟨bossInfo, hboss, rfl⟩ := map_eq_some_iff.mp hboss'
    dsimp only
    split at hgo'
    · next h =>
      cases hgo'
      rw [entry_refreshed] at hinfo
      rw [if_pos hinfo, h]
      exact Std.ExtTreeSet.mem_insert_self
    · have hmem := hfiled g go' hgo' info hinfo bossInfo hboss
      split
      · exact Std.ExtTreeSet.mem_insert.mpr (.inr hmem)
      · exact hmem
  · intro g go' hgo' hne
    rw [hsame.doorRange] at hne ⊢
    rw [hsame.allowsOpen]
    rw [gameObjects_onGameObjectCreate] at hgo'
    split at hgo'
    · cases hgo'
      rw [entry_refreshed] at hne ⊢
      exact goState_refreshed hne
    · exact hreflect g go' hgo' hne

theorem sameRules_onGameObjectRemove (script : InstanceScript) (guid : ObjectGuid) :
    SameRules script (script.onGameObjectRemove guid) := by
  unfold onGameObjectRemove
  split
  · exact ⟨rfl, fun _ => rfl⟩
  · next go hgo =>
    have hfold := sameRules_foldl_modifyDoors script (script.doorRange go.entry)
      (·.erase guid) (erase_erase_self guid)
    exact ⟨hfold.doors, hfold.states⟩

theorem gameObjects_onGameObjectRemove (script : InstanceScript) (guid g : ObjectGuid) :
    (script.onGameObjectRemove guid).map.gameObjects[g]? =
      if g = guid then none else script.map.gameObjects[g]? := by
  unfold onGameObjectRemove
  cases hgo : script.map.gameObjects[guid]? with
  | none =>
    dsimp only
    split
    · next h => rw [h, hgo]
    · rfl
  | some go =>
    dsimp only
    rw [getElem?_erase_eq, (sameMap_foldl_modifyDoors script _ _).map]

/-- A door that leaves is taken out of no set that another door is filed in. -/
theorem doors_onGameObjectRemove (hfiled : Filed script) (hreflect : DoorsReflect script)
    (guid : ObjectGuid) :
    Filed (script.onGameObjectRemove guid) ∧ DoorsReflect (script.onGameObjectRemove guid) := by
  have hsame := sameRules_onGameObjectRemove script guid
  constructor
  · intro g go' hgo' info hinfo bossInfo' hboss'
    rw [gameObjects_onGameObjectRemove] at hgo'
    rw [hsame.doorRange] at hinfo
    split at hgo'
    · cases hgo'
    · next hne =>
      unfold onGameObjectRemove at hboss'
      split at hboss'
      · exact hfiled g go' hgo' info hinfo bossInfo' hboss'
      · dsimp only at hboss'
        rw [bosses_foldl_modifyDoors script _ (erase_erase_self guid)] at hboss'
        obtain ⟨bossInfo, hboss, rfl⟩ := map_eq_some_iff.mp hboss'
        have hmem := hfiled g go' hgo' info hinfo bossInfo hboss
        dsimp only
        split
        · apply Std.ExtTreeSet.mem_erase.mpr
          exact ⟨fun heq => hne (Std.LawfulEqCmp.compare_eq_iff_eq.mp heq).symm, hmem⟩
        · exact hmem
  · intro g go' hgo' hne
    rw [hsame.doorRange] at hne ⊢
    rw [hsame.allowsOpen]
    rw [gameObjects_onGameObjectRemove] at hgo'
    split at hgo'
    · cases hgo'
    · exact hreflect g go' hgo' hne

section

variable (hsets : Sets script id state result)
include hsets

/-- Every object of the map after a call was there before, with the same rules. -/
theorem gameObjects_setBossState {guid : ObjectGuid}
    {go' : GameObject} (h : result.1.map.gameObjects[guid]? = some go') :
    ∃ go, script.map.gameObjects[guid]? = some go ∧ go.entry = go'.entry := by
  cases hsets with
  | refused => exact ⟨go', h, rfl⟩
  | initialized hboss hstate => exact ⟨go', h, rfl⟩
  | moved hboss hinit hdone attemptEpoch hscript' =>
    subst hscript'
    rw [(sameObjects_updateSpawnGroups _).gameObjects, gameObjects_updateDoorStates] at h
    split at h
    · obtain ⟨go, hgo, rfl⟩ := map_eq_some_iff.mp h
      exact ⟨go, hgo, (entry_refreshed go).symm⟩
    · exact ⟨go', h, rfl⟩

theorem doors_setBossState : result.1.doors = script.doors := by
  cases hsets with
  | refused => rfl
  | initialized hboss hstate => rfl
  | moved hboss hinit hdone attemptEpoch hscript' =>
    subst hscript'
    exact (sameBosses_updateDoorStates _ _).doors

/-- Every boss keeps its doors. -/
theorem door_setBossState {b : Nat} {bossInfo' : BossInfo}
    (h : result.1.bosses[b]? = some bossInfo') :
    ∃ bossInfo, script.bosses[b]? = some bossInfo ∧ bossInfo.door = bossInfo'.door := by
  have hset : ∀ {bossInfo stored : BossInfo}, script.bosses[id]? = some bossInfo →
      (script.bosses.set id stored)[b]? = some bossInfo' → stored.door = bossInfo.door →
      ∃ bossInfo, script.bosses[b]? = some bossInfo ∧ bossInfo.door = bossInfo'.door := by
    intro bossInfo stored hboss hstored hdoor
    rw [List.getElem?_set] at hstored
    split at hstored
    · next heq =>
      split at hstored
      · cases hstored
        exact ⟨bossInfo, heq ▸ hboss, hdoor.symm⟩
      · cases hstored
    · exact ⟨bossInfo', hstored, rfl⟩
  cases hsets with
  | refused => exact ⟨bossInfo', h, rfl⟩
  | initialized hboss hstate => exact hset hboss h rfl
  | moved hboss hinit hdone attemptEpoch hscript' =>
    subst hscript'
    rw [(sameBosses_updateSpawnGroups _).bosses, (sameBosses_updateDoorStates _ _).bosses] at h
    exact hset hboss h rfl

theorem filed_setBossState (hfiled : Filed script) : Filed result.1 := by
  intro guid go' hgo' info hinfo bossInfo' hboss'
  obtain ⟨go, hgo, hentry⟩ := gameObjects_setBossState hsets hgo'
  obtain ⟨bossInfo, hboss, hdoor⟩ := door_setBossState hsets hboss'
  have hrange : result.1.doorRange go'.entry = script.doorRange go.entry := by
    unfold doorRange
    rw [doors_setBossState hsets, hentry]
  rw [hrange] at hinfo
  rw [← hdoor]
  exact hfiled guid go hgo info hinfo bossInfo hboss

theorem noDoors_setBossState (h : NoDoors script) : NoDoors result.1 := by
  intro guid go' hgo'
  obtain ⟨go, hgo, hentry⟩ := gameObjects_setBossState hsets hgo'
  have hrange : result.1.doorRange go'.entry = script.doorRange go.entry := by
    unfold doorRange
    rw [doors_setBossState hsets, hentry]
  exact hrange.trans (h guid go hgo)

end

/-- A boss that moves refreshes the doors that have a rule about it, and the other doors have
rules about bosses that stay. -/
theorem doorsReflect_moved {bossInfo bossInfo' : BossInfo} {script' : InstanceScript}
    (hfiled : Filed script) (hreflect : DoorsReflect script)
    (hboss : script.bosses[id]? = some bossInfo)
    (hscript' : script' = { script with bosses := script.bosses.set id bossInfo' }) :
    DoorsReflect ((DoorType.all.flatMap fun type => (bossInfo.door type).toList).foldl
      updateDoorState script') := by
  have hmoved : ∀ i, script'.getBossState i =
      if i = id then bossInfo'.state else script.getBossState i :=
    hscript' ▸ getBossState_set hboss
  have hobjects : script'.map.gameObjects = script.map.gameObjects := by rw [hscript']
  have hrange : script'.doorRange = script.doorRange := by
    rw [hscript']
    rfl
  obtain ⟨guids, hguids⟩ : ∃ guids, guids =
    DoorType.all.flatMap fun type => (bossInfo.door type).toList := ⟨_, rfl⟩
  rw [← hguids]
  have hsame := (sameBosses_updateDoorStates script' guids).sameRules
  intro guid go' hgo' hne
  rw [hsame.doorRange] at hne ⊢
  rw [hsame.allowsOpen]
  rw [gameObjects_updateDoorStates, hobjects] at hgo'
  split at hgo'
  · obtain ⟨go, hgo, rfl⟩ := map_eq_some_iff.mp hgo'
    rw [entry_refreshed] at hne ⊢
    exact goState_refreshed hne
  · next hnot =>
    rw [hrange] at hne ⊢
    rw [hreflect guid go' hgo' hne]
    apply forall₂_congr
    intro info hinfo
    have hother : info.bossInfo ≠ id := by
      rintro rfl
      have hmem : guid ∈ bossInfo.door info.type := hfiled guid go' hgo' info hinfo bossInfo hboss
      apply hnot
      rw [hguids]
      apply List.mem_flatMap.mpr
      refine ⟨info.type, ?_, Std.ExtTreeSet.mem_toList.mpr hmem⟩
      cases info.type <;> decide
    unfold allowsOpen
    rw [hmoved, if_neg hother]

end InstanceScript

end TrinityCore.Instances
