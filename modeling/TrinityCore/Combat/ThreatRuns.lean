import TrinityCore.Combat.Bookkeeping
import TrinityCore.Combat.ThreatUpdates

/-!
# Runs of threat calls

The calls that change sort keys leave the ledger alone, so it is consistent after every sequence
of calls on threat and combat.
-/

namespace TrinityCore.Combat

variable {Heap : Type}

namespace World

section

variable (ops : HeapOps Heap) (env : Surroundings)

/-- The entries iterated are those of the map. -/
theorem mem_entriesOf_iff (who : ObjectGuid) (name : MapName)
    (m : Std.ExtTreeMap ObjectGuid RefId) (entry : ObjectGuid × RefId) :
    entry ∈ entriesOf env who name m ↔ m[entry.1]? = some entry.2 := by
  refine ⟨mem_entriesOf, fun h => ?_⟩
  refine List.mem_filterMap.mpr ⟨entry.1, ?_, ?_⟩
  · rw [(env.iterate_perm who name m.keys).mem_iff, Std.ExtTreeMap.mem_keys]
    exact Std.ExtTreeMap.mem_iff_isSome_getElem?.mpr (h ▸ rfl)
  · rw [h]
    rfl

theorem ledger_refScaleThreat (w : World Heap) (id : RefId) (factor : Float32) :
    (w.refScaleThreat ops id factor).ledger = w.ledger := by
  unfold refScaleThreat
  split
  · rfl
  have hbase := ledger_modifyThreatRef w id
    (f := fun ref => { ref with baseAmount := ref.baseAmount * factor }) fun _ => ⟨rfl, rfl⟩
  split
  · exact (ledger_heapNotifyIncreased ops _ id).trans hbase
  · exact (ledger_heapNotifyDecreased ops _ id).trans hbase

theorem ledger_updateTauntState (w : World Heap) (id : RefId) (state : UInt32) :
    (w.updateTauntState ops env id state).ledger = w.ledger := by
  simp only [updateTauntState]
  generalize (if state < tauntStateTaunt ∧ env.isDetaunting _ _ then _ else _) = granted
  split
  · rfl
  have htaunted := ledger_modifyThreatRef w id
    (f := fun ref => { ref with taunted := granted }) fun _ => ⟨rfl, rfl⟩
  split
  · exact (ledger_heapNotifyDecreased ops _ id).trans htaunted
  · exact (ledger_heapNotifyIncreased ops _ id).trans htaunted

theorem ledger_evaluateSuppressedRef (canExpire : Bool) (w : World Heap) (id : RefId) :
    (w.evaluateSuppressedRef ops env canExpire id).ledger = w.ledger := by
  simp only [evaluateSuppressedRef]
  split
  · exact (ledger_heapNotifyDecreased ops _ id).trans (ledger_setOnline w id _)
  split
  · exact (ledger_heapNotifyIncreased ops _ id).trans (ledger_setOnline w id _)
  · rfl

theorem ledger_evaluateSuppressed (w : World Heap) (who : ObjectGuid) (canExpire : Bool) :
    (w.evaluateSuppressed ops env who canExpire).ledger = w.ledger := by
  unfold evaluateSuppressed
  apply ledger_foldl
  intro w entry
  exact ledger_evaluateSuppressedRef ops env canExpire w entry.2

theorem ledger_tauntUpdate (w : World Heap) (owner : ObjectGuid) :
    (w.tauntUpdate ops env owner).ledger = w.ledger := by
  unfold tauntUpdate
  rw [ledger_evaluateSuppressed]
  apply ledger_foldl
  intro w entry
  exact ledger_updateTauntState ops env w entry.2 _

theorem ledger_resetAllThreat (w : World Heap) (owner : ObjectGuid) :
    (w.resetAllThreat ops env owner).ledger = w.ledger := by
  unfold resetAllThreat
  apply ledger_foldl
  intro w entry
  exact ledger_refScaleThreat ops w entry.2 0

theorem ledger_setTempModifier (mod : Int32) (isIncrease : Bool) (w : World Heap) (id : RefId) :
    (w.setTempModifier ops mod isIncrease id).ledger = w.ledger := by
  have hmod := ledger_modifyThreatRef w id
    (f := fun ref => { ref with tempModifier := mod }) fun _ => ⟨rfl, rfl⟩
  unfold setTempModifier
  split
  · exact (ledger_heapNotifyIncreased ops _ id).trans hmod
  · exact (ledger_heapNotifyDecreased ops _ id).trans hmod

theorem ledger_updateMyTempModifiers (w : World Heap) (who : ObjectGuid) :
    (w.updateMyTempModifiers ops env who).ledger = w.ledger := by
  simp only [updateMyTempModifiers]
  split
  · rfl
  · apply ledger_foldl
    intro w entry
    exact ledger_setTempModifier ops _ _ w entry.2

theorem ledger_fixateTarget (w : World Heap) (owner : ObjectGuid) (target : Option ObjectGuid) :
    (w.fixateTarget owner target).ledger = w.ledger :=
  ledger_modifyUnit_of_sameMaps w _ ⟨rfl, rfl, rfl, rfl, rfl⟩

end

end World

/-- A call that looks its reference up and then only changes a sort key. -/
theorem consistent_lookup {w : World Heap} (h : w.ledger.Consistent) (entry : Option RefId)
    {f : RefId → World Heap} (hf : ∀ id, (f id).ledger = w.ledger) :
    (match entry with
      | none => w
      | some id => f id).ledger.Consistent := by
  cases entry with
  | none => exact h
  | some id =>
    simp only [hf]
    exact h

variable (ops : HeapOps Heap)

/-- Every call on threat or combat keeps the ledger consistent. -/
theorem consistent_threatStep {w : World Heap} (h : w.ledger.Consistent)
    (event : Surroundings × ThreatCall) : (threatStep ops w event).ledger.Consistent := by
  obtain ⟨env, call⟩ := event
  cases call with
  | combat call => exact consistent_step ops h (env, call)
  | addThreatRef owner target amount =>
    exact consistent_lookup h _ fun id => World.ledger_refAddThreat ops w id amount
  | scaleThreatRef owner target factor =>
    exact consistent_lookup h _ fun id => World.ledger_refScaleThreat ops w id factor
  | updateOffline owner target =>
    exact consistent_lookup h _ fun id => World.ledger_updateOffline ops env w id
  | updateTauntState owner target state =>
    exact consistent_lookup h _ fun id => World.ledger_updateTauntState ops env w id state
  | evaluateSuppressed who canExpire =>
    exact (World.ledger_evaluateSuppressed ops env w who canExpire).symm ▸ h
  | scaleThreat owner target factor =>
    exact consistent_lookup h _ fun id => World.ledger_refScaleThreat ops w id _
  | tauntUpdate owner => exact (World.ledger_tauntUpdate ops env w owner).symm ▸ h
  | resetAllThreat owner => exact (World.ledger_resetAllThreat ops env w owner).symm ▸ h
  | updateMyTempModifiers who =>
    exact (World.ledger_updateMyTempModifiers ops env w who).symm ▸ h
  | updateVictim owner => exact (World.ledger_updateVictim ops env w owner).symm ▸ h
  | fixateTarget owner target => exact (World.ledger_fixateTarget w owner target).symm ▸ h

/-- The world after a sequence of calls, from units without references. -/
def threatRun (canHaveThreatList : ObjectGuid → Bool)
    (events : List (Surroundings × ThreatCall)) : World Heap :=
  StateMachine.run (threatStep ops) (World.initial ops canHaveThreatList) events

/-- The ledger is consistent after every sequence of calls. -/
theorem consistent_threatRun (canHaveThreatList : ObjectGuid → Bool)
    (events : List (Surroundings × ThreatCall)) :
    (threatRun ops canHaveThreatList events).ledger.Consistent := by
  have hinit : InOrder (World.initial ops canHaveThreatList) := by
    rw [InOrder, ledger_initial]
    exact Ledger.consistent_empty
  have hstep (w : World Heap) (event : Surroundings × ThreatCall) (h : InOrder w) :
      InOrder (threatStep ops w event) := consistent_threatStep ops h event
  exact StateMachine.run_invariant hinit hstep events

/-! ### New threat -/

namespace World

variable {w : World Heap}

theorem mem_myThreatListEntries (w : World Heap) (owner victim : ObjectGuid) :
    victim ∈ (w.units owner).myThreatListEntries ↔
      ∃ id, w.ledger.threat owner victim = some id := by
  rw [Std.ExtTreeMap.mem_iff_isSome_getElem?, Option.isSome_iff_exists]
  rfl

/-- Units that can begin combat are in combat after `SetInCombatWith`. -/
theorem setInCombatWith_snd {env : Surroundings} (h : w.ledger.Consistent) {owner who : ObjectGuid}
    (hcan : env.canBeginCombat owner who = true) :
    (w.setInCombatWith env owner who false).2 = true := by
  unfold setInCombatWith
  split
  · rfl
  next hnopvp =>
  split
  · rfl
  next hnopve =>
  simp only [hcan, Bool.not_true, Bool.false_eq_true, if_false]
  have hnew : ¬ w.ledger.Joined owner who := by
    rw [h.combatLinked.joined_iff]
    rintro ⟨pvp, id, hid⟩
    cases pvp with
    | true => exact nomatch hnopvp.symm.trans hid
    | false => exact nomatch hnopve.symm.trans hid
  set ref : CombatReference :=
    { first := owner, second := who, isPvP := env.isControlledByPlayer owner &&
      env.isControlledByPlayer who }
  have hput : (((w.putNewReference owner who ref).updateOwnerCombatState
      owner).updateOwnerCombatState who).ledger.Consistent :=
    consistent_putNewReference h rfl rfl (canBeginCombat_ne env hcan) hnew
  refine (isInCombatWith_iff hput.combatLinked owner who).mpr ?_
  have hfirst : ref.first = owner := rfl
  have hsecond : ref.second = who := rfl
  rw [ledger_updateOwnerCombatState, ledger_updateOwnerCombatState,
    ledger_putNewReference w hfirst hsecond]
  exact ⟨w.nextRef, ref, Function.update_self .., .inl ⟨rfl, rfl⟩⟩

/-- Threat against a unit that the owner can begin combat with puts that unit on the list. -/
theorem listed_addThreatIgnoringRedirects {env : Surroundings} (h : w.ledger.Consistent)
    {owner target : ObjectGuid} (hlist : (w.units owner).ownerCanHaveThreatList = true)
    (hcan : env.canBeginCombat owner target = true) (amount : Float32) :
    ∃ id, (w.addThreatIgnoringRedirects ops env owner target amount none
      true).ledger.threat owner target = some id := by
  simp only [addThreatIgnoringRedirects, causesNoThreat, hlist, applyThreat,
    setInCombatWith_snd h hcan, Bool.not_true, Bool.false_eq_true, if_false]
  split
  · next id hid =>
    rw [ledger_addThreatToEntry]
    exact ⟨id, hid⟩
  · rw [ledger_addThreatEntry]
    exact ⟨_, if_pos ⟨rfl, rfl⟩⟩

end World

/-- One call puts a hostile unit on the list of a creature. -/
theorem exists_listed_threatRun (canHaveThreatList : ObjectGuid → Bool) (env : Surroundings)
    (owner target : ObjectGuid) (hlist : canHaveThreatList owner = true)
    (hcan : env.canBeginCombat owner target = true) :
    ∃ events, target ∈
      ((threatRun ops canHaveThreatList events).units owner).myThreatListEntries := by
  refine ⟨[(env, .combat (.addThreat owner target 0 none true true))], ?_⟩
  rw [World.mem_myThreatListEntries]
  exact World.listed_addThreatIgnoringRedirects ops
    (consistent_threatRun ops canHaveThreatList []) hlist hcan 0

end TrinityCore.Combat
