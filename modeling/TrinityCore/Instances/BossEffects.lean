import TrinityCore.Instances.Doors
import TrinityCore.Instances.SaveData

/-!
# What a change of a boss brings about

Whenever `SetBossState` reports a change, the doors and the spawn groups are what the states of
the bosses say, as long as no boss is initialized after the doors are there: the branch for
loading stores a state and refreshes nothing.
-/

namespace TrinityCore.Instances

variable {script : InstanceScript} {creatures : ObjectGuid → Option Creature}

/-- What happens to the bosses and the doors of an instance. -/
inductive InstanceEvent where
  | onGameObjectCreate (guid : ObjectGuid) (go : GameObject)
  | onGameObjectRemove (guid : ObjectGuid)
  | setBossState (call : BossStateCall)

namespace InstanceScript

/-- The script after an event. -/
def step (script : InstanceScript) : InstanceEvent → InstanceScript
  | .onGameObjectCreate guid go => script.onGameObjectCreate guid go
  | .onGameObjectRemove guid => script.onGameObjectRemove guid
  | .setBossState call => script.call call

/-- The event does not initialize a boss. -/
def Decided (script : InstanceScript) : InstanceEvent → Prop
  | .setBossState call => ∀ bossInfo, script.bosses[call.id]? = some bossInfo →
      bossInfo.state ≠ .toBeDecided
  | _ => True

/-- The doors are filed and as the bosses say, and the rows are about spawn groups. -/
structure Wired (script : InstanceScript) : Prop where
  filed : Filed script
  reflect : DoorsReflect script
  rows : RowsLoaded script

/-! ### The rows -/

/-- The rows and what the map knows of spawn groups. -/
structure SameGroups (before after : InstanceScript) : Prop where
  rows : after.instanceSpawnGroups = before.instanceSpawnGroups
  spawnGroupData : after.map.spawnGroupData = before.map.spawnGroupData

theorem SameGroups.trans {a b c : InstanceScript} (h : SameGroups a b) (h' : SameGroups b c) :
    SameGroups a c :=
  ⟨h'.rows.trans h.rows, h'.spawnGroupData.trans h.spawnGroupData⟩

theorem SameGroups.rowsLoaded {before after : InstanceScript} (h : SameGroups before after)
    (hrows : RowsLoaded before) : RowsLoaded after := by
  intro info hinfo
  rw [h.rows] at hinfo
  unfold InstanceMap.HasSpawnGroup
  rw [h.spawnGroupData]
  exact hrows info hinfo

theorem sameGroups_of_bosses {script' : InstanceScript} {bosses : List BossInfo}
    (h : script' = { script with bosses := bosses }) : SameGroups script script' := by
  subst h
  exact ⟨rfl, rfl⟩

theorem sameGroups_updateDoorState (script : InstanceScript) (guid : ObjectGuid) :
    SameGroups script (script.updateDoorState guid) := by
  unfold updateDoorState
  split
  · exact ⟨rfl, rfl⟩
  · dsimp only
    split <;> exact ⟨rfl, rfl⟩

theorem sameGroups_updateDoorStates (script : InstanceScript) (guids : List ObjectGuid) :
    SameGroups script (guids.foldl updateDoorState script) := by
  induction guids generalizing script with
  | nil => exact ⟨rfl, rfl⟩
  | cons guid guids ih => exact (sameGroups_updateDoorState script guid).trans (ih _)

theorem sameGroups_updateSpawnGroups (script : InstanceScript) :
    SameGroups script script.updateSpawnGroups :=
  ⟨rfl, (sameObjects_updateSpawnGroups script).spawnGroupData⟩

theorem sameGroups_setBossState {id : Nat} {state : EncounterState}
    {result : InstanceScript × Bool} (hsets : Sets script id state result) :
    SameGroups script result.1 := by
  cases hsets with
  | refused => exact ⟨rfl, rfl⟩
  | initialized hboss hstate => exact ⟨rfl, rfl⟩
  | moved hboss hinit hdone attemptEpoch hscript' =>
    have hstored := sameGroups_of_bosses hscript'
    exact (hstored.trans (sameGroups_updateDoorStates _ _)).trans (sameGroups_updateSpawnGroups _)

theorem sameGroups_onGameObjectCreate (script : InstanceScript) (guid : ObjectGuid)
    (go : GameObject) : SameGroups script (script.onGameObjectCreate guid go) := by
  have hfold := sameMap_foldl_modifyDoors script (script.doorRange go.entry) (·.insert guid)
  unfold onGameObjectCreate
  dsimp only
  generalize (script.doorRange go.entry).foldl
    (fun script info => script.modifyDoors info (·.insert guid)) script = filed at hfold ⊢
  have hdata : filed.map.spawnGroupData = script.map.spawnGroupData := by rw [hfold.map]
  have hput : SameGroups script { filed with map := { filed.map with
      gameObjects := filed.map.gameObjects.insert guid go } } := ⟨hfold.rows, hdata⟩
  exact hput.trans (sameGroups_updateDoorState _ guid)

theorem sameGroups_onGameObjectRemove (script : InstanceScript) (guid : ObjectGuid) :
    SameGroups script (script.onGameObjectRemove guid) := by
  unfold onGameObjectRemove
  split
  · exact ⟨rfl, rfl⟩
  · next go hgo =>
    have hfold := sameMap_foldl_modifyDoors script (script.doorRange go.entry) (·.erase guid)
    refine ⟨hfold.rows, ?_⟩
    dsimp only
    rw [hfold.map]

/-! ### Runs -/

theorem doorsReflect_updateSpawnGroups (h : DoorsReflect script) :
    DoorsReflect script.updateSpawnGroups := by
  have hsame := (sameBosses_updateSpawnGroups script).sameRules
  intro guid go hgo hne
  rw [(sameObjects_updateSpawnGroups script).gameObjects] at hgo
  rw [hsame.doorRange] at hne ⊢
  rw [hsame.allowsOpen]
  exact h guid go hgo hne

/-- A call that reports a change leaves doors and spawn groups as the bosses say. -/
theorem Wired.moved {id : Nat} {state : EncounterState} {result : InstanceScript × Bool}
    (h : Wired script) (hsets : Sets script id state result) (hchanged : result.2 = true) :
    DoorsReflect result.1 ∧ SpawnGroupsReflect result.1 := by
  cases hsets with
  | refused => cases hchanged
  | initialized hboss hstate => cases hchanged
  | moved hboss hinit hdone attemptEpoch hscript' =>
    have hdoors := doorsReflect_moved h.filed h.reflect hboss hscript'
    have hstored := sameGroups_of_bosses hscript'
    constructor
    · exact doorsReflect_updateSpawnGroups hdoors
    · apply spawnGroupsReflect_updateSpawnGroups
      exact (hstored.trans (sameGroups_updateDoorStates _ _)).rowsLoaded h.rows

theorem Wired.step (h : Wired script) (event : InstanceEvent) (hdecided : script.Decided event) :
    Wired (script.step event) := by
  cases event with
  | onGameObjectCreate guid go =>
    obtain ⟨hfiled, hreflect⟩ := doors_onGameObjectCreate h.filed h.reflect guid go
    exact ⟨hfiled, hreflect, (sameGroups_onGameObjectCreate script guid go).rowsLoaded h.rows⟩
  | onGameObjectRemove guid =>
    obtain ⟨hfiled, hreflect⟩ := doors_onGameObjectRemove h.filed h.reflect guid
    exact ⟨hfiled, hreflect, (sameGroups_onGameObjectRemove script guid).rowsLoaded h.rows⟩
  | setBossState call =>
    have hsets := sets_setBossState script call.creatures call.id call.state
    show Wired (script.setBossState call.creatures call.id call.state).1
    generalize script.setBossState call.creatures call.id call.state = result at hsets
    refine ⟨filed_setBossState hsets h.filed, ?_, (sameGroups_setBossState hsets).rowsLoaded h.rows⟩
    have hmoved := h.moved hsets
    cases hsets with
    | refused => exact h.reflect
    | initialized hboss hstate => exact absurd hstate (hdecided _ hboss)
    | moved hboss hinit hdone attemptEpoch hscript' => exact (hmoved rfl).1

theorem noDoors_updateSpawnGroups (h : NoDoors script) : NoDoors script.updateSpawnGroups := by
  intro guid go hgo
  rw [(sameObjects_updateSpawnGroups script).gameObjects] at hgo
  exact h guid go hgo

/-- A script without registered doors, and the script that its initialization makes. -/
structure Initializes (script after : InstanceScript) : Prop where
  noDoors : NoDoors after
  sameGroups : SameGroups script after

theorem Initializes.updateSpawnGroups {after : InstanceScript} (h : Initializes script after) :
    Initializes script after.updateSpawnGroups :=
  ⟨noDoors_updateSpawnGroups h.noDoors, h.sameGroups.trans (sameGroups_updateSpawnGroups after)⟩

theorem Initializes.setBossState {after : InstanceScript} (h : Initializes script after)
    (creatures : ObjectGuid → Option Creature) (id : Nat) (state : EncounterState) :
    Initializes script (after.setBossState creatures id state).1 := by
  have hsets := sets_setBossState after creatures id state
  exact ⟨noDoors_setBossState hsets h.noDoors, h.sameGroups.trans (sameGroups_setBossState hsets)⟩

theorem initializes_create (h : NoDoors script) :
    Initializes script (script.create creatures) := by
  apply Initializes.updateSpawnGroups
  apply @StateMachine.run_invariant _ _
    (fun script id => (InstanceScript.setBossState script creatures id .notStarted).1) script
      (Initializes script) ⟨h, rfl, rfl⟩
  exact fun after id hafter => hafter.setBossState creatures id .notStarted

theorem initializes_load (h : NoDoors script) (uninitialised : Uninitialised)
    (data : List UInt8) : Initializes script (script.load creatures uninitialised data) := by
  unfold load
  split
  · exact ⟨h, rfl, rfl⟩
  · apply Initializes.updateSpawnGroups
    rw [foldl_read_eq]
    apply @StateMachine.run_invariant _ _
      (fun script (entry : Nat × UInt32) => readBossState script creatures entry.1 entry.2) script
        (Initializes script) ⟨h, rfl, rfl⟩
    intro after entry hafter
    unfold readBossState
    generalize (if entry.2 = 1 ∨ entry.2 = 2 ∨ entry.2 = 4 then (0 : UInt32) else entry.2) = buff
    dsimp only
    split
    · exact hafter.setBossState creatures entry.1 _
    · exact hafter

/-! ### The order of the rows -/

/-- The same script with other rows. -/
def withRows (rows : List InstanceSpawnGroupInfo) (script : InstanceScript) : InstanceScript :=
  { script with instanceSpawnGroups := rows }

theorem updateDoorState_withRows (rows : List InstanceSpawnGroupInfo) (script : InstanceScript)
    (guid : ObjectGuid) :
    (script.withRows rows).updateDoorState guid = (script.updateDoorState guid).withRows rows := by
  have hrange : (script.withRows rows).doorRange = script.doorRange := rfl
  have hopen : (script.withRows rows).doorOpen = script.doorOpen := rfl
  have hobjects : (script.withRows rows).map.gameObjects = script.map.gameObjects := rfl
  unfold updateDoorState
  rw [hrange, hopen, hobjects]
  cases script.map.gameObjects[guid]? with
  | none => rfl
  | some door =>
    dsimp only
    split <;> rfl

theorem updateDoorStates_withRows (rows : List InstanceSpawnGroupInfo) (script : InstanceScript)
    (guids : List ObjectGuid) :
    guids.foldl updateDoorState (script.withRows rows) =
      (guids.foldl updateDoorState script).withRows rows := by
  induction guids generalizing script with
  | nil => rfl
  | cons guid guids ih => rw [List.foldl_cons, updateDoorState_withRows, ih, List.foldl_cons]

/-- A call switches the groups the same way in whatever order the rows are. -/
theorem isSpawnGroupActive_setBossState_withRows (h : RowsLoaded script)
    {rows : List InstanceSpawnGroupInfo} (hperm : rows.Perm script.instanceSpawnGroups)
    (creatures : ObjectGuid → Option Creature) (id : Nat) (state : EncounterState)
    (groupId : UInt32) :
    ((script.withRows rows).setBossState creatures id state).1.map.isSpawnGroupActive groupId =
      (script.setBossState creatures id state).1.map.isSpawnGroupActive groupId := by
  have hbosses : (script.withRows rows).bosses = script.bosses := rfl
  unfold setBossState
  rw [hbosses]
  cases script.bosses[id]? with
  | none => rfl
  | some bossInfo =>
    dsimp only
    by_cases hinit : bossInfo.state = .toBeDecided
    · rw [if_pos hinit, if_pos hinit]
      rfl
    rw [if_neg hinit, if_neg hinit]
    by_cases hsame : bossInfo.state = state
    · rw [if_pos hsame, if_pos hsame]
      rfl
    rw [if_neg hsame, if_neg hsame]
    by_cases hdone : bossInfo.state = .done
    · rw [if_pos hdone, if_pos hdone]
      rfl
    rw [if_neg hdone, if_neg hdone]
    by_cases hguarded : state = .done ∧ guarded bossInfo creatures = true
    · rw [if_pos hguarded, if_pos hguarded]
      rfl
    rw [if_neg hguarded, if_neg hguarded]
    dsimp only
    generalize script.bosses.set id _ = bosses
    have hgroups := (@sameGroups_of_bosses script _ bosses rfl).trans
      (sameGroups_updateDoorStates _
        (DoorType.all.flatMap fun type => (bossInfo.door type).toList))
    have hrows := hgroups.rowsLoaded h
    rw [← hgroups.rows] at hperm
    have hactive := isSpawnGroupActive_of_perm hrows hperm groupId
    have hwith : { script.withRows rows with bosses := bosses } =
        ({ script with bosses := bosses } : InstanceScript).withRows rows := rfl
    rw [hwith, updateDoorStates_withRows]
    exact hactive

/-- Whenever a call of `SetBossState` reports a change, every registered door of the map is open
exactly when all its rules hold and every spawn group that has a row is active exactly when one
activates it and none blocks it, in whatever order the rows are. -/
theorem setBossState_reflects (script : InstanceScript) (hdoors : NoDoors script)
    (hrows : RowsLoaded script) (initialised : InstanceScript)
    (hinit : (∃ creatures, initialised = script.create creatures) ∨
      ∃ creatures uninitialised data, initialised = script.load creatures uninitialised data)
    (events : List InstanceEvent)
    (hdecided : StateMachine.Admits InstanceScript.step Decided initialised events)
    (creatures : ObjectGuid → Option Creature) (id : Nat) (state : EncounterState)
    (hchanged : ((StateMachine.run InstanceScript.step initialised events).setBossState
      creatures id state).2 = true) :
    let before := StateMachine.run InstanceScript.step initialised events
    let after := (before.setBossState creatures id state).1
    DoorsReflect after ∧ SpawnGroupsReflect after ∧
      ∀ rows : List InstanceSpawnGroupInfo, rows.Perm before.instanceSpawnGroups → ∀ groupId,
        ((before.withRows rows).setBossState creatures id state).1.map.isSpawnGroupActive
          groupId = after.map.isSpawnGroupActive groupId := by
  have hinitialised : Initializes script initialised := by
    obtain ⟨creatures, rfl⟩ | ⟨creatures, uninitialised, data, rfl⟩ := hinit
    · exact initializes_create hdoors
    · exact initializes_load hdoors uninitialised data
  have hwired : Wired initialised :=
    ⟨hinitialised.noDoors.filed, hinitialised.noDoors.doorsReflect,
      hinitialised.sameGroups.rowsLoaded hrows⟩
  have hrun := StateMachine.run_invariant_of_admits hwired
    (fun before event hbefore hok => hbefore.step event hok) events hdecided
  obtain ⟨hafter, hgroups⟩ := hrun.moved (sets_setBossState _ creatures id state) hchanged
  exact ⟨hafter, hgroups, fun rows hperm groupId =>
    isSpawnGroupActive_setBossState_withRows hrun.rows hperm creatures id state groupId⟩

/-- Two bosses, a room door of the first and a spawn group that follows the second. -/
def twoBosses : InstanceScript :=
  (({ map := { spawnGroupData := fun groupId => if groupId = 7 then some {} else none }
      instanceSpawnGroups := [{ bossStateId := 1, bossStates := 2, spawnGroupId := 7, flags := 1 }]
      } : InstanceScript).setBossNumber 2).loadDoorData [{ entry := 1, bossId := 0, type := .room }]

theorem noDoors_twoBosses : NoDoors twoBosses := by
  intro guid go hgo
  have hempty : twoBosses.map.gameObjects[guid]? = none := Std.ExtTreeMap.getElem?_empty
  exact nomatch hempty.symm.trans hgo

theorem rowsLoaded_twoBosses : RowsLoaded twoBosses := by
  intro info hinfo
  cases List.mem_singleton.mp hinfo
  exact ⟨{}, rfl, rfl⟩

/-- The door is there, and the second boss is engaged. -/
theorem setBossState_reflects_twoBosses :
    let before := (twoBosses.create fun _ => none).step (.onGameObjectCreate 5 { entry := 1 })
    let after := (before.setBossState (fun _ => none) 1 .inProgress).1
    DoorsReflect after ∧ SpawnGroupsReflect after := by
  have h := setBossState_reflects twoBosses noDoors_twoBosses rowsLoaded_twoBosses
    (twoBosses.create fun _ => none) (Or.inl ⟨_, rfl⟩) [.onGameObjectCreate 5 { entry := 1 }]
    ⟨trivial, trivial⟩ (fun _ => none) 1 .inProgress (by decide +kernel)
  exact ⟨h.1, h.2.1⟩

/-- The first boss is sent back to no state and initialized again, which refreshes nothing: its
room door is open while it is in progress. -/
theorem setBossState_reflects_not_after_initialize :
    let call := fun id state => InstanceEvent.setBossState ⟨fun _ => none, id, state⟩
    let before := StateMachine.run InstanceScript.step (twoBosses.create fun _ => none)
      [.onGameObjectCreate 5 { entry := 1 }, call 0 .toBeDecided, call 0 .inProgress]
    (before.setBossState (fun _ => none) 1 .inProgress).2 = true ∧
      ¬DoorsReflect (before.setBossState (fun _ => none) 1 .inProgress).1 := by
  intro call before
  constructor
  · decide +kernel
  · intro hreflect
    have hgo : (before.setBossState (fun _ => none) 1 .inProgress).1.map.gameObjects[(5 : ObjectGuid)]? =
        some { entry := 1, goState := .active } := by
      decide +kernel
    have hrules := (hreflect 5 { entry := 1, goState := .active } hgo (by decide +kernel)).mp rfl
    have hroom := hrules { bossInfo := 0, type := .room } (by decide +kernel)
    exact absurd hroom (by decide +kernel)

end InstanceScript

end TrinityCore.Instances
