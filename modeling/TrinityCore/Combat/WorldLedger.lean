import TrinityCore.Combat.CombatManager
import TrinityCore.Combat.Ledger
import TrinityCore.Lib.TreeMapLists

/-!
# The ledger of a world

What each primitive of the managers does to the ledger. Sort keys, heaps and victims do not
matter to it; the rest is one of the ledger's own operations.
-/

namespace TrinityCore.Combat

open Function Ledger

open TreeMapLists

variable {Heap : Type}

variable {ref : CombatReference}

namespace World

/-- What the maps, stores and flags say. -/
def ledger (w : World Heap) : Ledger where
  combat pvp a b := ((w.units a).refs pvp)[b]?
  reference id := w.combatRefs[id]?
  threat a b := (w.units a).myThreatListEntries[b]?
  threatened b a := (w.units b).threatenedByMe[a]?
  ends id := w.threatRefs[id]?.map fun ref => (ref.owner, ref.victim)
  inCombat a := (w.units a).inCombat
  next := w.nextRef

/-! ### What the ledger does not see -/

/-- The states of a unit agree on maps and flag. -/
structure SameMaps (unit unit' : UnitState Heap) : Prop where
  inCombat : unit'.inCombat = unit.inCombat
  pveRefs : unit'.pveRefs = unit.pveRefs
  pvpRefs : unit'.pvpRefs = unit.pvpRefs
  myThreatListEntries : unit'.myThreatListEntries = unit.myThreatListEntries
  threatenedByMe : unit'.threatenedByMe = unit.threatenedByMe

/-- A ledger's entries for one unit. -/
def rows (l : Ledger) (a : ObjectGuid) :=
  (fun pvp => l.combat pvp a, l.threat a, l.threatened a, l.inCombat a)

/-- Changing a unit rewrites its rows of the ledger. -/
theorem ledger_modifyUnit {w : World Heap} {who : ObjectGuid}
    {f : UnitState Heap → UnitState Heap} {l : Ledger}
    (hstores : l.reference = w.ledger.reference ∧ l.ends = w.ledger.ends ∧ l.next = w.ledger.next)
    (hwho : (let unit := f (w.units who)
      (fun pvp b => (unit.refs pvp)[b]?, fun b => unit.myThreatListEntries[b]?,
        fun a => unit.threatenedByMe[a]?, unit.inCombat)) = rows l who)
    (hothers : ∀ a, a ≠ who → rows w.ledger a = rows l a) : (w.modifyUnit who f).ledger = l := by
  have hrows (a : ObjectGuid) : rows (w.modifyUnit who f).ledger a = rows l a := by
    by_cases ha : a = who
    · rw [ha, ← hwho]
      simp only [rows, ledger, units_modifyUnit, if_true]
    · rw [← hothers a ha]
      simp only [rows, ledger, units_modifyUnit, if_neg ha]
  rw [Ledger.ext_iff]
  refine ⟨?_, hstores.1.symm, ?_, ?_, hstores.2.1.symm, ?_, hstores.2.2.symm⟩
  · funext pvp a
    exact congrFun (congrArg Prod.fst (hrows a)) pvp
  · funext a
    exact congrArg (·.2.1) (hrows a)
  · funext a
    exact congrArg (·.2.2.1) (hrows a)
  · funext a
    exact congrArg (·.2.2.2) (hrows a)

theorem ledger_modifyUnit_of_sameMaps (w : World Heap) (who : ObjectGuid)
    {f : UnitState Heap → UnitState Heap} (hf : SameMaps (w.units who) (f (w.units who))) :
    (w.modifyUnit who f).ledger = w.ledger := by
  refine ledger_modifyUnit ⟨rfl, rfl, rfl⟩ ?_ fun _ _ => rfl
  simp [rows, ledger, UnitState.refs, hf.pveRefs, hf.pvpRefs, hf.myThreatListEntries,
    hf.threatenedByMe, hf.inCombat]

theorem ledger_modifyThreatRef (w : World Heap) (id : RefId)
    {f : ThreatReference → ThreatReference}
    (hf : ∀ ref, (f ref).owner = ref.owner ∧ (f ref).victim = ref.victim) :
    (w.modifyThreatRef id f).ledger = w.ledger := by
  have hends : (w.modifyThreatRef id f).ledger.ends = w.ledger.ends := by
    ext i : 1
    simp only [ledger, modifyThreatRef, getElem?_modify_eq]
    split
    · next heq =>
      rw [heq, Option.map_map]
      congr 1
      ext ref : 1
      simp only [comp_apply, (hf ref).1, (hf ref).2]
    · rfl
  rw [Ledger.ext_iff]
  exact ⟨rfl, rfl, rfl, rfl, hends, rfl, rfl⟩

section

variable (ops : HeapOps Heap) (env : Surroundings)

theorem ledger_heapNotifyIncreased (w : World Heap) (id : RefId) :
    (w.heapNotifyIncreased ops id).ledger = w.ledger :=
  ledger_modifyUnit_of_sameMaps w _ ⟨rfl, rfl, rfl, rfl, rfl⟩

theorem ledger_heapNotifyDecreased (w : World Heap) (id : RefId) :
    (w.heapNotifyDecreased ops id).ledger = w.ledger :=
  ledger_modifyUnit_of_sameMaps w _ ⟨rfl, rfl, rfl, rfl, rfl⟩

theorem ledger_refAddThreat (w : World Heap) (id : RefId) (amount : Float32) :
    (w.refAddThreat ops id amount).ledger = w.ledger := by
  unfold refAddThreat
  split
  · rfl
  have hbase := ledger_modifyThreatRef w id
    (f := fun ref => { ref with baseAmount := stdMax (ref.baseAmount + amount) 0 })
    fun _ => ⟨rfl, rfl⟩
  split
  · exact (ledger_heapNotifyIncreased ops _ id).trans hbase
  · exact (ledger_heapNotifyDecreased ops _ id).trans hbase

theorem ledger_setOnline (w : World Heap) (id : RefId) (state : OnlineState) :
    (w.modifyThreatRef id fun ref => { ref with online := state }).ledger = w.ledger :=
  ledger_modifyThreatRef w id fun _ => ⟨rfl, rfl⟩

theorem ledger_updateOffline (w : World Heap) (id : RefId) :
    (w.updateOffline ops env id).ledger = w.ledger := by
  simp only [updateOffline]
  split
  · rfl
  split
  · exact (ledger_heapNotifyDecreased ops _ id).trans (ledger_setOnline w id _)
  · exact (ledger_heapNotifyIncreased ops _ id).trans (ledger_setOnline w id _)

/-- A loop of steps the ledger does not see. -/
theorem ledger_foldl {α : Type} {f : World Heap → α → World Heap}
    (hf : ∀ w a, (f w a).ledger = w.ledger) (l : List α) (w : World Heap) :
    (l.foldl f w).ledger = w.ledger := by
  induction l generalizing w with
  | nil => rfl
  | cons a rest ih => rw [List.foldl_cons, ih, hf]

theorem ledger_reselectVictim (w : World Heap) (owner : ObjectGuid) :
    (w.reselectVictim ops env owner).1.ledger = w.ledger := by
  simp only [reselectVictim]
  split
  · rfl
  · exact ledger_foldl (fun w _ => ledger_updateOffline ops env w _) _ w

theorem ledger_updateVictim (w : World Heap) (owner : ObjectGuid) :
    (w.updateVictim ops env owner).ledger = w.ledger := by
  unfold updateVictim
  refine Eq.trans ?_ (ledger_reselectVictim ops env w owner)
  exact ledger_modifyUnit_of_sameMaps _ _ ⟨rfl, rfl, rfl, rfl, rfl⟩

end

/-! ### Threat -/

section

variable (ops : HeapOps Heap) (env : Surroundings)

theorem ledger_purgeThreatListRef (w : World Heap) (owner guid : ObjectGuid) :
    (w.purgeThreatListRef ops owner guid).ledger =
      { w.ledger with threat := update2 w.ledger.threat owner guid none } := by
  unfold purgeThreatListRef
  split
  · next hnone =>
    rw [Ledger.ext_iff]
    refine ⟨rfl, rfl, ?_, rfl, rfl, rfl, rfl⟩
    ext a b : 2
    simp only [update2, ledger]
    split
    · next heq => rw [heq.1, heq.2, hnone]
    · rfl
  · refine ledger_modifyUnit ⟨rfl, rfl, rfl⟩ ?_ fun a ha => ?_
    · simp [rows, ledger, UnitState.refs, funext_iff, update2, getElem?_erase_eq]
    · simp [rows, funext_iff, update2, ha]

theorem ledger_purgeThreatenedByMeRef (w : World Heap) (victim guid : ObjectGuid) :
    (w.purgeThreatenedByMeRef victim guid).ledger =
      { w.ledger with threatened := Ledger.update2 w.ledger.threatened victim guid none } := by
  refine ledger_modifyUnit ⟨rfl, rfl, rfl⟩ ?_ fun a ha => ?_
  · simp [rows, ledger, UnitState.refs, funext_iff, update2, getElem?_erase_eq]
  · simp [rows, funext_iff, update2, ha]

theorem ledger_putThreatListRef (w : World Heap) (owner guid : ObjectGuid) (id : RefId) :
    (w.putThreatListRef ops owner guid id).ledger =
      { w.ledger with threat := Ledger.update2 w.ledger.threat owner guid (some id) } := by
  refine ledger_modifyUnit ⟨rfl, rfl, rfl⟩ ?_ fun a ha => ?_
  · simp [rows, ledger, UnitState.refs, funext_iff, update2, getElem?_insert_eq]
  · simp [rows, funext_iff, update2, ha]

theorem ledger_putThreatenedByMeRef (w : World Heap) (victim guid : ObjectGuid) (id : RefId) :
    (w.putThreatenedByMeRef victim guid id).ledger =
      { w.ledger with threatened := Ledger.update2 w.ledger.threatened victim guid (some id) } := by
  refine ledger_modifyUnit ⟨rfl, rfl, rfl⟩ ?_ fun a ha => ?_
  · simp [rows, ledger, UnitState.refs, funext_iff, update2, getElem?_insert_eq]
  · simp [rows, funext_iff, update2, ha]

theorem ledger_deleteThreatRef (w : World Heap) (id : RefId) :
    (w.deleteThreatRef id).ledger =
      { w.ledger with ends := Function.update w.ledger.ends id none } := by
  rw [Ledger.ext_iff]
  refine ⟨rfl, rfl, rfl, rfl, ?_, rfl, rfl⟩
  ext i : 1
  simp only [ledger, deleteThreatRef, getElem?_erase_eq, update_apply]
  split <;> rfl

theorem ledger_newThreatRef (w : World Heap) (ref : ThreatReference) :
    (w.newThreatRef ref).ledger =
      { w.ledger with
        ends := Function.update w.ledger.ends w.nextRef (some (ref.owner, ref.victim))
        next := w.nextRef + 1 } := by
  rw [Ledger.ext_iff]
  refine ⟨rfl, rfl, rfl, rfl, ?_, rfl, rfl⟩
  ext i : 1
  simp only [ledger, newThreatRef, getElem?_insert_eq, update_apply]
  split <;> rfl

theorem ledger_unregisterAndFree (w : World Heap) {id : RefId} {a b : ObjectGuid}
    (hid : w.ledger.ends id = some (a, b)) :
    (w.unregisterAndFree ops id).ledger = w.ledger.unregister id a b := by
  obtain ⟨ref, href, hpair⟩ := Option.map_eq_some_iff.mp hid
  obtain ⟨rfl, rfl⟩ := Prod.mk.inj hpair
  simp only [unregisterAndFree, href, ledger_deleteThreatRef, ledger_purgeThreatenedByMeRef,
    ledger_purgeThreatListRef]
  rfl

theorem ledger_clearThreatRef (w : World Heap) (owner : ObjectGuid) {id : RefId}
    {a b : ObjectGuid} (hid : w.ledger.ends id = some (a, b)) :
    (w.clearThreatRef ops env owner id).ledger = w.ledger.unregister id a b := by
  simp only [clearThreatRef]
  split
  · exact (ledger_updateVictim ops env _ owner).trans (ledger_unregisterAndFree ops w hid)
  · exact ledger_unregisterAndFree ops w hid

theorem ledger_clearThreat (w : World Heap) (h : w.ledger.ThreatLinked)
    (owner target : ObjectGuid) :
    (w.clearThreat ops env owner target).ledger = w.ledger.clear owner target := by
  unfold clearThreat clear
  cases hlookup : (w.units owner).myThreatListEntries[target]? with
  | none => rw [show w.ledger.threat owner target = none from hlookup]
  | some id =>
    rw [show w.ledger.threat owner target = some id from hlookup]
    exact ledger_clearThreatRef ops env w owner ((h.threat owner target id).mp hlookup)

end

/-! ### Combat state -/

theorem deref_ledger (w : World Heap) (id : RefId) : w.ledger.deref id = w.combatRef id :=
  Std.ExtTreeMap.getD_eq_getD_getElem?.symm

theorem anyActive_iff (w : World Heap) (owner : ObjectGuid)
    (refs : Std.ExtTreeMap ObjectGuid RefId) :
    w.anyActive owner refs = true ↔
      ∃ (b : ObjectGuid) (id : RefId), refs[b]? = some id ∧ (w.ledger.deref id).isSuppressedFor owner = false := by
  simp only [anyActive, List.any_eq_true, Prod.exists,
    Std.ExtTreeMap.mem_toList_iff_getElem?_eq_some, Bool.not_eq_true', deref_ledger]

theorem hasCombat_iff (w : World Heap) (owner : ObjectGuid) :
    w.hasCombat owner = true ↔ w.ledger.HasCombat owner := by
  rw [hasCombat, Bool.or_eq_true, hasPvECombat, hasPvPCombat, anyActive_iff, anyActive_iff,
    Ledger.HasCombat, Bool.exists_bool]
  rfl

theorem ledger_updateOwnerCombatState (w : World Heap) (owner : ObjectGuid) :
    (w.updateOwnerCombatState owner).ledger = w.ledger.updateState owner := by
  classical
  have hstate : w.hasCombat owner = decide (w.ledger.HasCombat owner) := by
    rw [Bool.eq_iff_iff, hasCombat_iff, decide_eq_true_iff]
  simp only [updateOwnerCombatState, hstate]
  split
  · next heq =>
    rw [Ledger.ext_iff]
    refine ⟨rfl, rfl, rfl, rfl, rfl, ?_, rfl⟩
    exact (update_eq_self_iff.mpr heq).symm
  · refine ledger_modifyUnit ⟨rfl, rfl, rfl⟩ ?_ fun a ha => ?_
    · simp [rows, ledger, UnitState.refs, updateState]
    · simp [rows, updateState, ha]

/-! ### Combat references -/

theorem ledger_purgeReference (w : World Heap) (owner guid : ObjectGuid) (pvp : Bool) :
    (w.purgeReference owner guid pvp).ledger = w.ledger.purge pvp owner guid := by
  refine ledger_modifyUnit ⟨rfl, rfl, rfl⟩ ?_ fun a ha => ?_
  · cases pvp <;> simp [rows, ledger, UnitState.refs, funext_iff, purge, getElem?_erase_eq]
  · simp [rows, purge, ha]

theorem ledger_putReference (w : World Heap) (owner guid : ObjectGuid) (isPvP : Bool)
    (id : RefId) :
    (w.putReference owner guid isPvP id).ledger =
      { w.ledger with
        combat := fun kind a b =>
          if kind = isPvP ∧ a = owner ∧ b = guid then some id else w.ledger.combat kind a b } := by
  refine ledger_modifyUnit ⟨rfl, rfl, rfl⟩ ?_ fun a ha => ?_
  · cases isPvP <;> simp [rows, ledger, UnitState.refs, funext_iff, getElem?_insert_eq]
  · simp [rows, ha]

theorem ledger_modifyCombatRef (w : World Heap) (id : RefId)
    (f : CombatReference → CombatReference) :
    (w.modifyCombatRef id f).ledger = w.ledger.modifyReference id f := by
  rw [Ledger.ext_iff]
  refine ⟨rfl, ?_, rfl, rfl, rfl, rfl, rfl⟩
  ext i : 1
  simp only [ledger, modifyCombatRef, getElem?_modify_eq, modifyReference, update_apply]

theorem ledger_deleteCombatRef (w : World Heap) (id : RefId) :
    (w.deleteCombatRef id).ledger =
      { w.ledger with reference := Function.update w.ledger.reference id none } := by
  rw [Ledger.ext_iff]
  refine ⟨rfl, ?_, rfl, rfl, rfl, rfl, rfl⟩
  ext i : 1
  simp only [ledger, deleteCombatRef, getElem?_erase_eq, update_apply]

theorem ledger_newCombatRef (w : World Heap) (ref : CombatReference) :
    (w.newCombatRef ref).ledger =
      { w.ledger with
        reference := Function.update w.ledger.reference w.nextRef (some ref)
        next := w.nextRef + 1 } := by
  rw [Ledger.ext_iff]
  refine ⟨rfl, ?_, rfl, rfl, rfl, rfl, rfl⟩
  ext i : 1
  simp only [ledger, newCombatRef, getElem?_insert_eq, update_apply]

theorem combatRef_eq {w : World Heap} {id : RefId} (h : w.ledger.reference id = some ref) :
    w.combatRef id = ref := by
  rw [← deref_ledger, deref, h, Option.getD_some]

/-- The new reference of `SetInCombatWith`, in both maps. -/
def putNewReference (w : World Heap) (owner who : ObjectGuid) (ref : CombatReference) :
    World Heap :=
  ((w.newCombatRef ref).putReference owner who ref.isPvP w.nextRef).putReference who owner
    ref.isPvP w.nextRef

theorem ledger_putNewReference (w : World Heap) {owner who : ObjectGuid}
    (hfirst : ref.first = owner) (hsecond : ref.second = who) :
    (w.putNewReference owner who ref).ledger = w.ledger.newCombat ref := by
  rw [putNewReference, ledger_putReference, ledger_putReference, ledger_newCombatRef,
    Ledger.ext_iff]
  refine ⟨?_, rfl, rfl, rfl, rfl, rfl, rfl⟩
  ext kind a b : 3
  simp only [newCombat, CombatReference.Between, hfirst, hsecond]
  grind [ledger]

section

variable (ops : HeapOps Heap) (env : Surroundings)

theorem ledger_endCombat (w : World Heap) (hthreat : w.ledger.ThreatLinked) {id : RefId}
    (hid : w.ledger.reference id = some ref) (hpoints : w.ledger.PointsTo id ref) :
    (w.endCombat ops env id).ledger = w.ledger.endCombat id ref := by
  have hlookup : w.combatRefs[id]? = some ref := hid
  have hfirst := ledger_clearThreat ops env w hthreat ref.first ref.second
  have hsecond := ledger_clearThreat ops env (w.clearThreat ops env ref.first ref.second)
    (hfirst ▸ hthreat.clear _ _) ref.second ref.first
  rw [hfirst] at hsecond
  simp only [endCombat, hlookup, ledger_deleteCombatRef, ledger_updateOwnerCombatState,
    ledger_purgeReference, hsecond]
  have hpoints' := (hpoints.clear ref.first ref.second).clear ref.second ref.first
  unfold Ledger.endCombat
  generalize (w.ledger.clear ref.first ref.second).clear ref.second ref.first = m at *
  rw [Ledger.ext_iff]
  refine ⟨Ledger.purge_purge_combat m id ref, rfl, rfl, rfl, rfl, ?_, rfl⟩
  have hcombat := hasCombat_purge_purge hpoints'
  exact inCombat_updateState_congr
    (inCombat_updateState_congr (by rfl) hcombat ref.first) hcombat ref.second

/-- Erasing the entry of one side first, as the iterating loops do, makes no difference. -/
theorem ledger_eraseAndEndCombat (w : World Heap) (h : w.ledger.Consistent) {owner : ObjectGuid}
    {pvp : Bool} {entry : ObjectGuid × RefId}
    (hentry : w.ledger.combat pvp owner entry.1 = some entry.2) :
    ∃ ref, w.ledger.reference entry.2 = some ref ∧ ref.Between owner entry.1 ∧
      (w.eraseAndEndCombat ops env owner pvp entry).ledger =
        w.ledger.endCombat entry.2 ref := by
  obtain ⟨ref, href, hkind, hbetween⟩ := (h.combatLinked.combat _ _ _ _).mp hentry
  refine ⟨ref, href, hbetween, ?_⟩
  have hpurge := ledger_purgeReference w owner entry.1 pvp
  have hthreat : (w.purgeReference owner entry.1 pvp).ledger.ThreatLinked := by
    rw [hpurge]
    exact ⟨h.threatLinked.threat, h.threatLinked.threatened, h.threatLinked.fresh⟩
  have hid : (w.purgeReference owner entry.1 pvp).ledger.reference entry.2 = some ref := by
    rw [hpurge]
    exact href
  have hpoints : (w.purgeReference owner entry.1 pvp).ledger.PointsTo entry.2 ref := by
    rw [hpurge]
    exact (h.combatLinked.pointsTo href).purge _ _ _
  rw [eraseAndEndCombat, ledger_endCombat ops env _ hthreat hid hpoints, hpurge, ← hkind,
    endCombat_purge _ hbetween]

end

end World

end TrinityCore.Combat
