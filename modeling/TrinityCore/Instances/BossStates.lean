import TrinityCore.Instances.InstanceScript
import TrinityCore.Lib.StateMachine

/-!
# What `SetBossState` does to the bosses

Doors and spawn groups read the states of the bosses and never write them. A call of
`SetBossState` is refused, or initializes a boss, or moves a boss that is not done.
-/

namespace TrinityCore.Instances

variable {script : InstanceScript} {creatures : ObjectGuid → Option Creature} {id i : Nat}
  {state : EncounterState}

namespace InstanceScript

/-- What neither doors nor spawn groups write. -/
structure SameBosses (before after : InstanceScript) : Prop where
  bosses : after.bosses = before.bosses
  doors : after.doors = before.doors
  rows : after.instanceSpawnGroups = before.instanceSpawnGroups
  headers : after.headers = before.headers

theorem SameBosses.refl (script : InstanceScript) : SameBosses script script := ⟨rfl, rfl, rfl, rfl⟩

theorem SameBosses.trans {a b c : InstanceScript} (h : SameBosses a b) (h' : SameBosses b c) :
    SameBosses a c :=
  ⟨h'.bosses.trans h.bosses, h'.doors.trans h.doors, h'.rows.trans h.rows,
    h'.headers.trans h.headers⟩

theorem SameBosses.getBossState {before after : InstanceScript} (h : SameBosses before after)
    (id : Nat) : after.getBossState id = before.getBossState id := by
  unfold InstanceScript.getBossState
  rw [h.bosses]

theorem sameBosses_updateDoorState (script : InstanceScript) (guid : ObjectGuid) :
    SameBosses script (script.updateDoorState guid) := by
  unfold updateDoorState
  split
  · exact SameBosses.refl _
  · dsimp only
    split
    · exact SameBosses.refl _
    · exact ⟨rfl, rfl, rfl, rfl⟩

theorem sameBosses_updateDoorStates (script : InstanceScript) (guids : List ObjectGuid) :
    SameBosses script (guids.foldl updateDoorState script) := by
  induction guids generalizing script with
  | nil => exact SameBosses.refl _
  | cons guid guids ih => exact (sameBosses_updateDoorState script guid).trans (ih _)

theorem sameBosses_updateSpawnGroups (script : InstanceScript) :
    SameBosses script script.updateSpawnGroups := ⟨rfl, rfl, rfl, rfl⟩

/-- Everything a call of `SetBossState` can do. -/
inductive Sets (script : InstanceScript) (id : Nat) (state : EncounterState) :
    InstanceScript × Bool → Prop
  | refused : Sets script id state (script, false)
  | initialized {bossInfo : BossInfo} (hboss : script.bosses[id]? = some bossInfo)
      (hstate : bossInfo.state = .toBeDecided) :
      Sets script id state
        ({ script with bosses := script.bosses.set id { bossInfo with state := state } }, false)
  | moved {bossInfo : BossInfo} (hboss : script.bosses[id]? = some bossInfo)
      (hinit : bossInfo.state ≠ .toBeDecided) (hdone : bossInfo.state ≠ .done)
      (attemptEpoch : UInt64) {script' : InstanceScript}
      (hscript' : script' = { script with
        bosses := script.bosses.set id
          { bossInfo with attemptEpoch := attemptEpoch, state := state } }) :
      Sets script id state
        (((DoorType.all.flatMap fun type => (bossInfo.door type).toList).foldl updateDoorState
          script').updateSpawnGroups, true)

theorem sets_setBossState (script : InstanceScript) (creatures : ObjectGuid → Option Creature)
    (id : Nat) (state : EncounterState) :
    Sets script id state (script.setBossState creatures id state) := by
  unfold setBossState
  split
  · exact Sets.refused
  · next bossInfo hboss =>
    split
    · next hstate => exact Sets.initialized hboss hstate
    · next hinit =>
      split
      · exact Sets.refused
      · split
        · exact Sets.refused
        · next hdone =>
          split
          · exact Sets.refused
          · exact Sets.moved hboss hinit hdone _ rfl

/-- The state of a boss after another state was stored. -/
theorem getBossState_set {bossInfo bossInfo' : BossInfo}
    (hboss : script.bosses[id]? = some bossInfo) (i : Nat) :
    { script with bosses := script.bosses.set id bossInfo' }.getBossState i =
      if i = id then bossInfo'.state else script.getBossState i := by
  have hlength : id < script.bosses.length := (List.getElem?_eq_some_iff.mp hboss).1
  unfold getBossState
  by_cases h : i = id
  · subst h
    simp [hlength]
  · simp [h, List.getElem?_set_ne (Ne.symm h)]

theorem getBossState_eq {bossInfo : BossInfo} (hboss : script.bosses[id]? = some bossInfo) :
    script.getBossState id = bossInfo.state := by
  unfold getBossState
  rw [hboss]

/-- A call changes no boss but its own, and that one to the state it is given. -/
theorem getBossState_setBossState (script : InstanceScript)
    (creatures : ObjectGuid → Option Creature) (id : Nat) (state : EncounterState) (i : Nat) :
    (script.setBossState creatures id state).1.getBossState i = script.getBossState i ∨
      i = id ∧ script.getBossState i ≠ .done ∧
        (script.setBossState creatures id state).1.getBossState i = state := by
  have hsets := sets_setBossState script creatures id state
  generalize script.setBossState creatures id state = result at hsets
  cases hsets with
  | refused => exact .inl rfl
  | initialized hboss hstate =>
    rw [getBossState_set hboss]
    split
    · next heq =>
      subst heq
      refine .inr ⟨rfl, ?_, rfl⟩
      rw [getBossState_eq hboss, hstate]
      decide
    · exact .inl rfl
  | moved hboss hinit hdone attemptEpoch hscript' =>
    rw [(sameBosses_updateSpawnGroups _).getBossState,
      (sameBosses_updateDoorStates _ _).getBossState, hscript', getBossState_set hboss]
    split
    · next heq =>
      subst heq
      refine .inr ⟨rfl, ?_, rfl⟩
      rw [getBossState_eq hboss]
      exact hdone
    · exact .inl rfl

/-- A boss without a state is initialized, whatever the state. -/
theorem getBossState_initialize (h : script.getBossState id = .toBeDecided)
    (hid : id < script.bosses.length) (i : Nat) :
    (script.setBossState creatures id state).1.getBossState i =
      if i = id then state else script.getBossState i := by
  have hboss : script.bosses[id]? = some script.bosses[id] := List.getElem?_eq_getElem hid
  unfold setBossState
  rw [hboss]
  dsimp only
  rw [if_pos ((getBossState_eq hboss).symm.trans h)]
  exact getBossState_set hboss i

theorem length_setBossState (script : InstanceScript) (creatures : ObjectGuid → Option Creature)
    (id : Nat) (state : EncounterState) :
    (script.setBossState creatures id state).1.bosses.length = script.bosses.length := by
  have hsets := sets_setBossState script creatures id state
  generalize script.setBossState creatures id state = result at hsets
  cases hsets with
  | refused => rfl
  | initialized hboss hstate => exact List.length_set
  | moved hboss hinit hdone attemptEpoch hscript' =>
    rw [(sameBosses_updateSpawnGroups _).bosses, (sameBosses_updateDoorStates _ _).bosses, hscript']
    exact List.length_set

end InstanceScript

/-- A call of `SetBossState`. -/
structure BossStateCall where
  creatures : ObjectGuid → Option Creature
  id : Nat
  state : EncounterState

/-- The script after a call of `SetBossState`. -/
def InstanceScript.call (script : InstanceScript) (call : BossStateCall) : InstanceScript :=
  (script.setBossState call.creatures call.id call.state).1

/-- No calls of `SetBossState` change a boss that is done. -/
theorem done_run (hdone : script.getBossState i = .done) (calls : List BossStateCall) :
    (StateMachine.run InstanceScript.call script calls).getBossState i = .done := by
  apply @StateMachine.run_invariant _ _ InstanceScript.call script
    fun script => script.getBossState i = .done
  · exact hdone
  · intro script call hdone
    obtain heq | ⟨-, hnot, -⟩ :=
      InstanceScript.getBossState_setBossState script call.creatures call.id call.state i
    · exact heq.trans hdone
    · exact absurd hdone hnot

end TrinityCore.Instances
