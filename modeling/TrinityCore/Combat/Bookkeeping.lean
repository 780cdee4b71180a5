import TrinityCore.Combat.WorldLedger
import TrinityCore.Lib.StateMachine

/-!
# Combat bookkeeping

Every operation of the managers keeps the ledger consistent, so it is consistent in every
run: shared references are in both maps, flags tell whether an active reference is held, and
threat implies combat.
-/

namespace TrinityCore.Combat

open CombatReference Option Std.ExtTreeMap

variable {Heap : Type}

variable {who owner : ObjectGuid} {ref : CombatReference} {lift : CombatReference → CombatReference}

namespace World

/-! ### Loops over a map -/

/-- The entries iterated are entries of the map, -/
theorem mem_entriesOf {env : Surroundings} {name : MapName} {m : Std.ExtTreeMap ObjectGuid RefId}
    {entry : ObjectGuid × RefId} (h : entry ∈ entriesOf env who name m) :
    m[entry.1]? = some entry.2 := by
  obtain ⟨key, -, hkey⟩ := List.mem_filterMap.mp h
  obtain ⟨id, hid, rfl⟩ := map_eq_some_iff.mp hkey
  exact hid

/-- each once. -/
theorem pairwise_entriesOf (env : Surroundings) (who : ObjectGuid) (name : MapName)
    (m : Std.ExtTreeMap ObjectGuid RefId) :
    (entriesOf env who name m).Pairwise fun a b => a.1 ≠ b.1 := by
  have hkeys : (env.iterate who name m.keys).Nodup :=
    (env.iterate_perm who name m.keys).nodup_iff.mpr m.nodup_keys
  apply List.Pairwise.filterMap _ _ hkeys
  intro key key' hne entry hentry entry' hentry'
  obtain ⟨id, -, rfl⟩ := map_eq_some_iff.mp hentry
  obtain ⟨id', -, rfl⟩ := map_eq_some_iff.mp hentry'
  exact hne

/-- The entry is in the combat map of `owner`. -/
def Held (w : World Heap) (owner : ObjectGuid) (pvp : Bool) (entry : ObjectGuid × RefId) : Prop :=
  w.ledger.combat pvp owner entry.1 = some entry.2

/-- A loop over combat entries whose rounds need their entry in the map and leave the others
there. -/
theorem foldl_held (inv : World Heap → Prop) (owner : ObjectGuid) (pvp : Bool)
    {f : World Heap → ObjectGuid × RefId → World Heap}
    (hf : ∀ w entry, inv w → w.Held owner pvp entry → inv (f w entry) ∧
      ∀ key, key ≠ entry.1 →
        (f w entry).ledger.combat pvp owner key = w.ledger.combat pvp owner key)
    (entries : List (ObjectGuid × RefId)) (hkeys : entries.Pairwise fun a b => a.1 ≠ b.1)
    (w : World Heap) (hinv : inv w) (hheld : ∀ entry ∈ entries, w.Held owner pvp entry) :
    inv (entries.foldl f w) := by
  induction entries generalizing w with
  | nil => exact hinv
  | cons entry rest ih =>
    obtain ⟨hinv', hothers⟩ := hf w entry hinv (hheld entry List.mem_cons_self)
    rw [List.pairwise_cons] at hkeys
    apply ih hkeys.2 _ hinv'
    intro other hother
    rw [Held, hothers other.1 (Ne.symm (hkeys.1 other hother))]
    exact hheld other (List.mem_cons_of_mem entry hother)

/-- A loop whose rounds keep an invariant. -/
theorem foldl_invariant {α : Type} (inv : World Heap → Prop) {f : World Heap → α → World Heap}
    (hf : ∀ w a, inv w → inv (f w a)) (l : List α) (w : World Heap) (hinv : inv w) :
    inv (l.foldl f w) := by
  induction l generalizing w with
  | nil => exact hinv
  | cons a rest ih => exact ih (f w a) (hf w a hinv)

/-! ### The operations keep the ledger consistent -/

section

variable (ops : HeapOps Heap) (env : Surroundings) {w : World Heap}

section

variable (h : w.ledger.Consistent)
include h

theorem consistent_clearThreat (owner target : ObjectGuid) :
    (w.clearThreat ops env owner target).ledger.Consistent := by
  rw [ledger_clearThreat ops env w h.threatLinked]
  exact h.clear owner target

theorem consistent_unregisterAndFree (id : RefId) :
    (w.unregisterAndFree ops id).ledger.Consistent := by
  cases hid : w.ledger.ends id with
  | none =>
    have hdangling : w.threatRefs[id]? = none := map_eq_none_iff.mp hid
    simp only [unregisterAndFree, hdangling]
    exact h
  | some pair =>
    rw [ledger_unregisterAndFree ops w hid]
    have hclear := h.clear pair.1 pair.2
    rwa [Ledger.clear, (h.threatLinked.threat pair.1 pair.2 id).mpr hid] at hclear

theorem consistent_clearAllThreat (owner : ObjectGuid) :
    (w.clearAllThreat ops env owner).ledger.Consistent :=
  foldl_invariant (fun w => w.ledger.Consistent)
    (fun _ entry hw => consistent_unregisterAndFree ops hw entry.2) _ w h

theorem consistent_removeMeFromThreatLists (owner : ObjectGuid)
    (unitFilter : UnitFilter) :
    (w.removeMeFromThreatLists ops env owner unitFilter).ledger.Consistent :=
  foldl_invariant (fun w => w.ledger.Consistent)
    (fun _ _ hw => consistent_clearThreat ops env hw _ owner) _ w h

theorem consistent_endCombat (id : RefId) : (w.endCombat ops env id).ledger.Consistent := by
  cases hid : w.ledger.reference id with
  | none =>
    have hdangling : w.combatRefs[id]? = none := hid
    simp only [endCombat, hdangling]
    exact h
  | some ref =>
    rw [ledger_endCombat ops env w h.threatLinked hid (h.combatLinked.pointsTo hid)]
    exact h.endCombat hid

theorem consistent_endCombatWith (owner : ObjectGuid) (pvp : Bool)
    (unitFilter : UnitFilter) :
    (w.endCombatWith ops env owner pvp unitFilter).ledger.Consistent :=
  foldl_invariant (fun w => w.ledger.Consistent)
    (fun _ entry hw => consistent_endCombat ops env hw entry.2) _ w h

/-- A round of an iterating loop that ends combat. -/
theorem consistent_eraseAndEndCombat {pvp : Bool}
    {entry : ObjectGuid × RefId} (hentry : w.Held owner pvp entry) :
    (w.eraseAndEndCombat ops env owner pvp entry).ledger.Consistent ∧
      ∀ key, key ≠ entry.1 →
        (w.eraseAndEndCombat ops env owner pvp entry).ledger.combat pvp owner key =
          w.ledger.combat pvp owner key := by
  obtain ⟨ref, href, hbetween, hledger⟩ := ledger_eraseAndEndCombat ops env w h hentry
  rw [hledger]
  refine ⟨h.endCombat href, ?_⟩
  intro key hne
  apply Ledger.endCombat_combat
  have hdistinct := h.combatLinked.distinct entry.2 ref href
  unfold CombatReference.Between at *
  grind

theorem consistent_endCombatUnless (owner : ObjectGuid) (pvp : Bool)
    (keep : CombatReference → Bool) :
    (w.endCombatUnless ops env owner pvp keep).ledger.Consistent := by
  apply foldl_held (fun w => w.ledger.Consistent) owner pvp
  · intro w entry hw hentry
    split
    · exact ⟨hw, fun _ _ => rfl⟩
    · exact consistent_eraseAndEndCombat ops env hw hentry
  · exact pairwise_entriesOf env owner _ _
  · exact h
  · intro entry hmem
    exact mem_entriesOf hmem

theorem consistent_endCombatBeyondRange (owner : ObjectGuid)
    (includingPvP : Bool) :
    (w.endCombatBeyondRange ops env owner includingPvP).ledger.Consistent := by
  have hpve := consistent_endCombatUnless ops env h owner false
    fun ref => env.isWithinDistInMap ref.first ref.second
  simp only [endCombatBeyondRange]
  split
  · exact consistent_endCombatUnless ops env hpve owner true _
  · exact hpve

theorem consistent_revalidateCombat (owner : ObjectGuid) :
    (w.revalidateCombat ops env owner).ledger.Consistent :=
  consistent_endCombatUnless ops env (consistent_endCombatUnless ops env h owner false _) owner
    true _

theorem consistent_endAllPvECombat (owner : ObjectGuid)
    (unitFilter : UnitFilter) :
    (w.endAllPvECombat ops env owner unitFilter).ledger.Consistent := by
  have hthreat := consistent_removeMeFromThreatLists ops env h owner unitFilter
  have hall := consistent_clearAllThreat ops env hthreat owner
  exact consistent_endCombatWith ops env hall owner false unitFilter

theorem consistent_endAllPvPCombat (owner : ObjectGuid)
    (unitFilter : UnitFilter) :
    (w.endAllPvPCombat ops env owner unitFilter).ledger.Consistent :=
  consistent_endCombatWith ops env h owner true unitFilter

theorem consistent_update (owner : ObjectGuid) (tdiff : UInt32) :
    (w.update ops env owner tdiff).ledger.Consistent := by
  apply foldl_held (fun w => w.ledger.Consistent) owner true
  · intro w entry hw hentry
    split
    · split
      · exact consistent_eraseAndEndCombat ops env hw hentry
      · rw [ledger_modifyCombatRef]
        refine ⟨?_, fun _ _ => rfl⟩
        apply hw.modifyReference_of_invisible
        · exact fun _ => ⟨rfl, rfl, rfl⟩
        · exact fun _ _ => rfl
    · exact ⟨hw, fun _ _ => rfl⟩
  · exact pairwise_entriesOf env owner _ _
  · exact h
  · intro entry hmem
    exact mem_entriesOf hmem

end

/-! ### Suppression -/

theorem keepsEnds_suppress (who : ObjectGuid) :
    Ledger.KeepsEnds fun ref => ref.suppress who := by
  intro ref
  show (ref.suppress who).first = _ ∧ (ref.suppress who).second = _ ∧ (ref.suppress who).isPvP = _
  unfold suppress
  split <;> exact ⟨rfl, rfl, rfl⟩

/-- Suppressing a reference for one of its units is invisible to the other. -/
theorem isSuppressedFor_suppress {x y z : ObjectGuid} (hwho : ref.Between who z)
    (hx : ref.Between x y) (hne : x ≠ who) :
    (ref.suppress who).isSuppressedFor x = ref.isSuppressedFor x := by
  unfold CombatReference.Between at hwho hx
  unfold suppress isSuppressedFor
  grind

theorem consistentBut_suppress (h : w.ledger.ConsistentBut who) {id : RefId}
    (hid : ∀ ref, w.ledger.reference id = some ref → ∃ y, ref.Between who y) :
    (w.modifyCombatRef id fun ref => ref.suppress who).ledger.ConsistentBut who := by
  rw [ledger_modifyCombatRef]
  apply h.modifyReference (keepsEnds_suppress who)
  rintro x hx ref href ⟨y, hbetween⟩
  obtain ⟨z, hwho⟩ := hid ref href
  exact isSuppressedFor_suppress hwho hbetween hx

/-- The reference an entry points to involves the owner of the map. -/
theorem between_of_held (h : w.ledger.CombatLinked) {key : ObjectGuid} {pvp : Bool} {id : RefId}
    (hheld : w.ledger.combat pvp owner key = some id) (href : w.ledger.reference id = some ref) :
    ∃ y, ref.Between owner y := by
  obtain ⟨r, hr, -, hbetween⟩ := (h.combat pvp owner key id).mp hheld
  rw [href] at hr
  exact ⟨key, some.inj hr ▸ hbetween⟩

theorem consistent_suppressFor (h : w.ledger.Consistent) {id : RefId} (pvp : Bool)
    {other : ObjectGuid} (hheld : w.ledger.combat pvp who other = some id) :
    (w.suppressFor id who).ledger.Consistent := by
  rw [suppressFor, ledger_updateOwnerCombatState]
  apply Ledger.ConsistentBut.updateState
  apply consistentBut_suppress (h.but who)
  intro ref href
  exact between_of_held h.combatLinked hheld href

theorem consistent_suppressPvPCombat (h : w.ledger.Consistent) (owner : ObjectGuid)
    (unitFilter : UnitFilter) :
    (w.suppressPvPCombat env owner unitFilter).ledger.Consistent := by
  simp only [suppressPvPCombat, ledger_updateOwnerCombatState]
  apply Ledger.ConsistentBut.updateState
  apply foldl_held (fun w => w.ledger.ConsistentBut owner) owner true
  · intro w entry hw hentry
    split
    · refine ⟨?_, fun _ _ => by rw [ledger_modifyCombatRef]; rfl⟩
      apply consistentBut_suppress hw
      intro ref href
      exact between_of_held hw.combatLinked hentry href
    · exact ⟨hw, fun _ _ => rfl⟩
  · exact pairwise_entriesOf env owner _ _
  · exact h.but owner
  · intro entry hmem
    exact mem_entriesOf hmem

/-! ### Beginning combat -/

theorem consistent_unsuppress (h : w.ledger.Consistent) (id : RefId) (suppressed : Bool)
    (who : ObjectGuid) (hends : Ledger.KeepsEnds lift)
    (hlift : ∀ x, x ≠ who → ∀ ref, w.ledger.reference id = some ref → (∃ y, ref.Between x y) →
      (lift ref).isSuppressedFor x = ref.isSuppressedFor x) :
    (w.unsuppress id suppressed who lift).ledger.Consistent ∧
      ∀ a b, (w.unsuppress id suppressed who lift).ledger.Joined a b ↔ w.ledger.Joined a b := by
  unfold unsuppress
  split
  · rw [ledger_updateOwnerCombatState, ledger_modifyCombatRef]
    refine ⟨((h.but who).modifyReference hends hlift).updateState, ?_⟩
    intro a b
    exact Ledger.joined_modifyReference id hends
  · exact ⟨h, fun _ _ => Iff.rfl⟩

/-- What the first half of `Refresh` leaves of the units of the reference. -/
theorem ends_of_unsuppress {id : RefId} {suppressed : Bool} (hends : Ledger.KeepsEnds lift)
    (href : (w.unsuppress id suppressed who lift).ledger.reference id = some ref) :
    ref.first = (w.combatRef id).first ∧ ref.second = (w.combatRef id).second := by
  unfold unsuppress at href
  split at href
  · rw [ledger_updateOwnerCombatState, ledger_modifyCombatRef] at href
    obtain ⟨old, hold, hfirst, hsecond, -⟩ := Ledger.keepsEnds_of_reference hends href
    rw [combatRef_eq hold]
    exact ⟨hfirst, hsecond⟩
  · rw [combatRef_eq href]
    exact ⟨rfl, rfl⟩

/-- Lifting both suppressions of a reference. -/
theorem consistent_refresh (h : w.ledger.Consistent) (id : RefId) :
    (w.refresh id).ledger.Consistent ∧
      ∀ a b, (w.refresh id).ledger.Joined a b ↔ w.ledger.Joined a b := by
  have hendsFirst : Ledger.KeepsEnds liftFirst := fun _ => ⟨rfl, rfl, rfl⟩
  have hendsSecond : Ledger.KeepsEnds liftSecond := fun _ => ⟨rfl, rfl, rfl⟩
  obtain ⟨hfirst, hjoined⟩ := consistent_unsuppress h id (w.combatRef id).suppressFirst
    (w.combatRef id).first hendsFirst (by
      intro x hx ref href _
      rw [combatRef_eq href] at hx
      have hx' : x ≠ ref.liftFirst.first := hx
      rw [isSuppressedFor_second hx, isSuppressedFor_second hx']
      rfl)
  obtain ⟨hsecond, hjoined'⟩ := consistent_unsuppress hfirst id (w.combatRef id).suppressSecond
    (w.combatRef id).second hendsSecond (by
      rintro x hx ref href ⟨y, hbetween⟩
      obtain ⟨heq, heq'⟩ := ends_of_unsuppress hendsFirst href
      rw [← heq'] at hx
      have hxfirst : x = ref.first := by
        rcases hbetween with ⟨hxy, -⟩ | ⟨-, hxy⟩
        · exact hxy.symm
        · exact absurd hxy.symm hx
      have hxfirst' : x = ref.liftSecond.first := hxfirst
      rw [isSuppressedFor_first hxfirst,
        isSuppressedFor_first hxfirst']
      rfl)
  exact ⟨hsecond, fun a b => (hjoined' a b).trans (hjoined a b)⟩

theorem isInCombatWith_iff (h : w.ledger.CombatLinked) (owner who : ObjectGuid) :
    w.isInCombatWith owner who = true ↔ w.ledger.Joined owner who := by
  rw [h.joined_iff, isInCombatWith, Bool.or_eq_true, Bool.exists_bool]
  simp only [contains_eq_isSome_getElem?, isSome_iff_exists]
  rfl

theorem canBeginCombat_ne {a b : ObjectGuid} (h : env.canBeginCombat a b = true) : a ≠ b := by
  rintro rfl
  simp [Surroundings.canBeginCombat] at h

/-- Beginning combat with a new reference. -/
theorem consistent_putNewReference (h : w.ledger.Consistent) (hfirst : ref.first = owner)
    (hsecond : ref.second = who) (hne : owner ≠ who) (hnew : ¬ w.ledger.Joined owner who) :
    (((w.putNewReference owner who ref).updateOwnerCombatState owner).updateOwnerCombatState
      who).ledger.Consistent := by
  rw [ledger_updateOwnerCombatState, ledger_updateOwnerCombatState,
    ledger_putNewReference w hfirst hsecond]
  subst hfirst hsecond
  exact h.newCombat hne hnew

/-- Suppression does not change the ends of the new reference. -/
theorem newReference_ends (owner who : ObjectGuid) (isPvP suppressed : Bool) :
    let ref : CombatReference := { first := owner, second := who, isPvP := isPvP }
    let ref' := if suppressed then ref.suppress who else ref
    ref'.first = owner ∧ ref'.second = who ∧ ref'.isPvP = isPvP := by
  cases suppressed with
  | true => exact keepsEnds_suppress who { first := owner, second := who, isPvP := isPvP }
  | false => exact ⟨rfl, rfl, rfl⟩

/-- `SetInCombatWith` keeps the books and, when it says so, has put the units in combat. -/
theorem consistent_setInCombatWith (h : w.ledger.Consistent) (owner who : ObjectGuid)
    (addSecondUnitSuppressed : Bool) :
    (w.setInCombatWith env owner who addSecondUnitSuppressed).1.ledger.Consistent ∧
      ((w.setInCombatWith env owner who addSecondUnitSuppressed).2 = true →
        (w.setInCombatWith env owner who addSecondUnitSuppressed).1.ledger.Joined owner who) := by
  unfold setInCombatWith
  split
  · next id hpvp =>
    have hjoined : w.ledger.Joined owner who := h.combatLinked.joined_iff.mpr ⟨true, id, hpvp⟩
    have hends : Ledger.KeepsEnds refreshTimer := fun _ => ⟨rfl, rfl, rfl⟩
    have htimer : (w.modifyCombatRef id refreshTimer).ledger.Consistent := by
      rw [ledger_modifyCombatRef]
      exact h.modifyReference_of_invisible hends fun _ _ => rfl
    obtain ⟨hrefresh, hjoined'⟩ := consistent_refresh htimer id
    refine ⟨hrefresh, fun _ => (hjoined' owner who).mpr ?_⟩
    rw [ledger_modifyCombatRef]
    exact (Ledger.joined_modifyReference id hends).mpr hjoined
  next hnopvp =>
  split
  · next id hpve =>
    have hjoined : w.ledger.Joined owner who := h.combatLinked.joined_iff.mpr ⟨false, id, hpve⟩
    obtain ⟨hrefresh, hjoined'⟩ := consistent_refresh h id
    exact ⟨hrefresh, fun _ => (hjoined' owner who).mpr hjoined⟩
  next hnopve =>
  split
  · exact ⟨h, fun hfalse => nomatch hfalse⟩
  next hcan =>
  have hne : owner ≠ who := canBeginCombat_ne env (by simpa using hcan)
  have hnew : ¬ w.ledger.Joined owner who := by
    rw [h.combatLinked.joined_iff]
    rintro ⟨pvp, id, hid⟩
    cases pvp with
    | true => exact nomatch hnopvp.symm.trans hid
    | false => exact nomatch hnopve.symm.trans hid
  obtain ⟨hfirst, hsecond, hkind⟩ := newReference_ends owner who
    (env.isControlledByPlayer owner && env.isControlledByPlayer who) addSecondUnitSuppressed
  have hput := consistent_putNewReference h hfirst hsecond hne hnew
  simp only [putNewReference, hkind] at hput
  exact ⟨hput, (isInCombatWith_iff hput.combatLinked owner who).mp⟩

/-! ### Adding threat -/

/-- Threat goes to an online reference only; either way the books do not see it. -/
theorem ledger_refAddThreat_ite (w : World Heap) (id : RefId) (amount : Float32) :
    (if (w.threatRef id).isOnline then w.refAddThreat ops id amount else w).ledger =
      w.ledger := by
  split
  · exact ledger_refAddThreat ops w id amount
  · rfl

theorem ledger_addThreatToEntry (w : World Heap) (id : RefId) (amount : Float32) :
    (w.addThreatToEntry ops env id amount).ledger = w.ledger := by
  simp only [addThreatToEntry]
  apply (ledger_refAddThreat_ite ops _ id amount).trans
  split
  · exact (ledger_heapNotifyIncreased ops _ id).trans (ledger_setOnline w id _)
  · rfl

/-- A victim is picked when there is none; the books do not see it. -/
theorem ledger_updateVictim_ite (w : World Heap) (owner : ObjectGuid) :
    (if (w.units owner).currentVictimRef = none then w.updateVictim ops env owner
      else w).ledger = w.ledger := by
  split
  · exact ledger_updateVictim ops env w owner
  · rfl

theorem ledger_addThreatEntry (w : World Heap) (owner target : ObjectGuid) (amount : Float32) :
    (w.addThreatEntry ops env owner target amount).ledger = w.ledger.newThreat owner target := by
  simp only [addThreatEntry]
  apply (ledger_updateVictim_ite ops env _ owner).trans
  apply (ledger_refAddThreat_ite ops _ _ amount).trans
  rw [ledger_updateOffline, ledger_putThreatenedByMeRef, ledger_putThreatListRef,
    ledger_newThreatRef]
  rfl

theorem consistent_applyThreat (h : w.ledger.Consistent) (owner target : ObjectGuid)
    (amount : Float32) : (w.applyThreat ops env owner target amount).ledger.Consistent := by
  obtain ⟨hcombat, hjoined⟩ := consistent_setInCombatWith env h owner target false
  unfold applyThreat
  generalize w.setInCombatWith env owner target false = result at *
  obtain ⟨w', inCombat⟩ := result
  simp only
  split
  · exact hcombat
  next hin =>
  split
  · rw [ledger_addThreatToEntry]
    exact hcombat
  · next hnone =>
    rw [ledger_addThreatEntry]
    exact hcombat.newThreat hnone (hjoined (by simpa using hin))

theorem consistent_addThreatIgnoringRedirects (h : w.ledger.Consistent) (owner target : ObjectGuid)
    (amount : Float32) (spell : Option ThreatSpell) (ignoreModifiers : Bool) :
    (w.addThreatIgnoringRedirects ops env owner target amount spell
      ignoreModifiers).ledger.Consistent := by
  unfold addThreatIgnoringRedirects
  split
  · exact h
  split
  · exact h
  · exact consistent_applyThreat ops env h owner target _

theorem consistent_redirectThreat (owner : ObjectGuid) (origAmount : Float32)
    (spell : Option ThreatSpell) (redirects : List (ObjectGuid × UInt32))
    (h : w.ledger.Consistent) (amount : Float32) :
    (redirectThreat ops env owner origAmount spell redirects w amount).1.ledger.Consistent := by
  induction redirects generalizing w amount with
  | nil => exact h
  | cons redirect rest ih =>
    obtain ⟨guid, pct⟩ := redirect
    unfold redirectThreat
    split
    · exact ih h amount
    · exact ih (consistent_addThreatIgnoringRedirects ops env h owner _ _ spell true) _

theorem consistent_engageRedirects (owner : ObjectGuid) (redirects : List (ObjectGuid × UInt32))
    (h : w.ledger.Consistent) :
    (engageRedirects env owner redirects w).ledger.Consistent := by
  induction redirects generalizing w with
  | nil => exact h
  | cons redirect rest ih =>
    obtain ⟨guid, pct⟩ := redirect
    unfold engageRedirects
    split
    · exact ih (consistent_setInCombatWith env h owner guid false).1
    · exact ih h

theorem consistent_addThreat (h : w.ledger.Consistent) (owner target : ObjectGuid)
    (amount : Float32) (spell : Option ThreatSpell) (ignoreModifiers ignoreRedirects : Bool) :
    (w.addThreat ops env owner target amount spell ignoreModifiers
      ignoreRedirects).ledger.Consistent := by
  unfold addThreat
  split
  · exact consistent_addThreatIgnoringRedirects ops env h owner target amount spell _
  split
  · exact h
  split
  · have hcombat := (consistent_setInCombatWith env h owner target false).1
    simp only
    split
    · exact hcombat
    · exact consistent_engageRedirects env owner _ hcombat
  · simp only
    generalize (if ignoreModifiers then amount else env.calculateModifiedThreat amount target) =
      modified
    split
    · apply consistent_applyThreat
      exact consistent_redirectThreat ops env owner _ spell _ h _
    · exact consistent_applyThreat ops env h owner target _

end

end World

/-! ### Runs -/

theorem consistent_step (ops : HeapOps Heap) {w : World Heap} (h : w.ledger.Consistent)
    (event : Surroundings × Call) : (step ops w event).ledger.Consistent := by
  obtain ⟨env, call⟩ := event
  cases call with
  | setInCombatWith owner who suppressed =>
    exact (World.consistent_setInCombatWith env h owner who suppressed).1
  | suppressFor who other =>
    simp only [step]
    split
    · exact h
    · next id hid =>
      unfold World.referenceWith at hid
      split at hid
      · next hpve =>
        cases hid
        exact World.consistent_suppressFor h false hpve
      · exact World.consistent_suppressFor h true hid
  | suppressPvPCombat owner unitFilter =>
    exact World.consistent_suppressPvPCombat env h owner unitFilter
  | endCombat who other =>
    simp only [step]
    split
    · exact h
    · exact World.consistent_endCombat ops env h _
  | update owner tdiff => exact World.consistent_update ops env h owner tdiff
  | endCombatBeyondRange owner includingPvP =>
    exact World.consistent_endCombatBeyondRange ops env h owner includingPvP
  | revalidateCombat owner => exact World.consistent_revalidateCombat ops env h owner
  | endAllPvECombat owner unitFilter =>
    exact World.consistent_endAllPvECombat ops env h owner unitFilter
  | endAllPvPCombat owner unitFilter =>
    exact World.consistent_endAllPvPCombat ops env h owner unitFilter
  | addThreat owner target amount spell ignoreModifiers ignoreRedirects =>
    exact World.consistent_addThreat ops env h owner target amount spell ignoreModifiers
      ignoreRedirects
  | clearThreat owner target => exact World.consistent_clearThreat ops env h owner target
  | clearAllThreat owner => exact World.consistent_clearAllThreat ops env h owner
  | removeMeFromThreatLists owner unitFilter =>
    exact World.consistent_removeMeFromThreatLists ops env h owner unitFilter

theorem ledger_initial (ops : HeapOps Heap) (canHaveThreatList : ObjectGuid → Bool) :
    (World.initial ops canHaveThreatList).ledger = Ledger.empty := by
  rw [Ledger.ext_iff]
  refine ⟨?_, ?_, ?_, ?_, ?_, rfl, rfl⟩
  · ext pvp a b : 3
    cases pvp <;> exact getElem?_empty
  · ext id : 1
    exact getElem?_empty
  · ext a b : 2
    exact getElem?_empty
  · ext a b : 2
    exact getElem?_empty
  · ext id : 1
    simp [World.ledger, World.initial, Ledger.empty]

/-- The books of all units are in order. -/
structure Bookkept (w : World Heap) : Prop where
  /-- An entry for another unit points to a live reference of its kind between the two. -/
  combat_live : ∀ pvp a b id, ((w.units a).refs pvp)[b]? = some id →
    ∃ ref : CombatReference, w.combatRefs[id]? = some ref ∧ ref.isPvP = pvp ∧ ref.Between a b
  /-- The same reference is in both maps or in neither. -/
  combat_shared : ∀ pvp a b id,
    ((w.units a).refs pvp)[b]? = some id ↔ ((w.units b).refs pvp)[a]? = some id
  /-- Two units share one reference at most. -/
  combat_single : ∀ a b, ¬ ((w.units a).pveRefs.contains b ∧ (w.units a).pvpRefs.contains b)
  /-- No unit is in combat with itself. -/
  combat_distinct : ∀ a, w.isInCombatWith a a = false
  /-- The flag tells whether the unit holds a reference not suppressed for it. -/
  flagged : ∀ a, (w.units a).inCombat = true ↔
    ∃ (pvp : Bool) (b : ObjectGuid) (id : RefId), ((w.units a).refs pvp)[b]? = some id ∧
      (w.combatRef id).isSuppressedFor a = false
  /-- A threat entry points to a live reference from its owner to its victim. -/
  threat_live : ∀ a b id, (w.units a).myThreatListEntries[b]? = some id →
    ∃ ref : ThreatReference, w.threatRefs[id]? = some ref ∧ ref.owner = a ∧ ref.victim = b
  /-- The same threat reference is in both managers or in neither. -/
  threat_shared : ∀ a b id,
    (w.units a).myThreatListEntries[b]? = some id ↔ (w.units b).threatenedByMe[a]? = some id
  /-- Threat implies combat, on both sides. -/
  threat_combat : ∀ a b, (w.units a).myThreatListEntries.contains b →
    w.isInCombatWith a b ∧ w.isInCombatWith b a

/-- A consistent ledger is the books in order. -/
theorem World.bookkept_of_consistent {w : World Heap} (h : w.ledger.Consistent) :
    Bookkept w where
  combat_live pvp a b id hid := (h.combatLinked.combat pvp a b id).mp hid
  combat_shared pvp a b id := by
    have hleft := h.combatLinked.combat pvp a b id
    have hright := h.combatLinked.combat pvp b a id
    have hsymm (ref : CombatReference) : ref.Between a b ↔ ref.Between b a := Or.comm
    simp only [hsymm] at hleft
    exact hleft.trans hright.symm
  combat_single a b := by
    rintro ⟨hpve, hpvp⟩
    rw [contains_eq_isSome_getElem?, isSome_iff_exists] at hpve hpvp
    obtain ⟨id, hid⟩ := hpve
    obtain ⟨id', hid'⟩ := hpvp
    obtain ⟨ref, href, hkind, hbetween⟩ := (h.combatLinked.combat false a b id).mp hid
    obtain ⟨ref', href', hkind', hbetween'⟩ := (h.combatLinked.combat true a b id').mp hid'
    have hsame : id' = id := by
      apply h.combatLinked.single id id' ref ref' href href'
      unfold CombatReference.Between at *
      grind
    rw [hsame, href, some.injEq] at href'
    rw [← href', hkind] at hkind'
    exact Bool.false_ne_true hkind'
  combat_distinct a := by
    rw [Bool.eq_false_iff, Ne, isInCombatWith_iff h.combatLinked]
    rintro ⟨id, ref, href, hbetween⟩
    have hdistinct := h.combatLinked.distinct id ref href
    unfold CombatReference.Between at hbetween
    grind
  flagged a := by
    have hflag := h.flagged a
    simp only [Ledger.Flagged, Ledger.HasCombat, deref_ledger] at hflag
    exact hflag
  threat_live a b id hid := by
    obtain ⟨ref, href, hpair⟩ := map_eq_some_iff.mp ((h.threatLinked.threat a b id).mp hid)
    exact ⟨ref, href, Prod.mk.inj hpair⟩
  threat_shared a b id := (h.threatLinked.threat a b id).trans (h.threatLinked.threatened a b id).symm
  threat_combat a b hcontains := by
    rw [contains_eq_isSome_getElem?, isSome_iff_exists] at hcontains
    obtain ⟨id, hid⟩ := hcontains
    have hjoined := h.covered id a b ((h.threatLinked.threat a b id).mp hid)
    obtain ⟨i, ref, href, hbetween⟩ := hjoined
    constructor
    · exact (isInCombatWith_iff h.combatLinked a b).mpr ⟨i, ref, href, hbetween⟩
    · exact (isInCombatWith_iff h.combatLinked b a).mpr ⟨i, ref, href, hbetween.symm⟩

/-- What `consistent_step` keeps, as a property of worlds. -/
def InOrder (w : World Heap) : Prop := w.ledger.Consistent

/-- The books are in order after every sequence of calls from units without references. -/
theorem bookkept_run (ops : HeapOps Heap) (canHaveThreatList : ObjectGuid → Bool)
    (events : List (Surroundings × Call)) :
    Bookkept (StateMachine.run (step ops) (World.initial ops canHaveThreatList) events) := by
  have hinit : InOrder (World.initial ops canHaveThreatList) := by
    rw [InOrder, ledger_initial]
    exact Ledger.consistent_empty
  have hstep (w : World Heap) (event : Surroundings × Call) (h : InOrder w) :
      InOrder (step ops w event) := consistent_step ops h event
  exact World.bookkept_of_consistent (StateMachine.run_invariant hinit hstep events)

end TrinityCore.Combat
