import TrinityCore.Combat.ThreatRuns

/-!
# Ending combat with a filter

What `EndAllPvECombat` removes and what it leaves alone. Threat others have for the owner goes
by the filter, but the owner's own threat list is cleared whole.
-/

namespace TrinityCore.Combat

open Option TreeMapLists

variable {Heap : Type}

variable {w w' w'' : World Heap} {a b : ObjectGuid}

namespace World

/-! ### Spared reference objects -/

/-- The objects on threat lists of the units to keep are not touched. -/
def Spares (w w' : World Heap) (keep : ObjectGuid → Prop) : Prop :=
  ∀ id x y, w.ledger.ends id = some (x, y) → keep x → w'.threatRefs[id]? = w.threatRefs[id]?

theorem Spares.of_eq (h : w'.threatRefs = w.threatRefs) (keep : ObjectGuid → Prop) :
    Spares w w' keep := by
  intro id _ _ _ _
  rw [h]

theorem Spares.trans {keep : ObjectGuid → Prop} (h : Spares w w' keep) (h' : Spares w' w'' keep) :
    Spares w w'' keep := by
  intro id x y hends hkeep
  have hsame := h id x y hends hkeep
  rw [← hsame]
  apply h' id x y _ hkeep
  rw [show w'.ledger.ends id = w'.threatRefs[id]?.map fun ref => (ref.owner, ref.victim) from rfl,
    hsame]
  exact hends

theorem Spares.mono {keep keep' : ObjectGuid → Prop} (h : Spares w w' keep)
    (hle : ∀ x, keep' x → keep x) : Spares w w' keep' :=
  fun id x y hends hkeep => h id x y hends (hle x hkeep)

section

variable (ops : HeapOps Heap) (env : Surroundings)

theorem threatRefs_updateOffline (w : World Heap) {id i : RefId} (hne : i ≠ id) :
    (w.updateOffline ops env id).threatRefs[i]? = w.threatRefs[i]? := by
  have hmodify (f : ThreatReference → ThreatReference) :
      (w.modifyThreatRef id f).threatRefs[i]? = w.threatRefs[i]? := by
    simp only [modifyThreatRef, getElem?_modify_eq, if_neg hne]
  simp only [updateOffline]
  split
  · rfl
  split
  · exact hmodify _
  · exact hmodify _

/-- A victim is reselected within one threat list. -/
theorem spares_updateVictim (h : w.ledger.ThreatLinked) (owner : ObjectGuid) :
    Spares w (w.updateVictim ops env owner) (· ≠ owner) := by
  have hfold (entries : List (ObjectGuid × RefId)) (v : World Heap) (i : RefId)
      (hne : ∀ entry ∈ entries, i ≠ entry.2) :
      (entries.foldl (fun w entry => w.updateOffline ops env entry.2) v).threatRefs[i]? =
        v.threatRefs[i]? := by
    induction entries generalizing v with
    | nil => rfl
    | cons entry rest ih =>
      rw [List.forall_mem_cons] at hne
      rw [List.foldl_cons, ih _ hne.2, threatRefs_updateOffline ops env v hne.1]
  intro id x y hends hx
  simp only [updateVictim, reselectVictim]
  split
  · rfl
  · apply hfold
    rintro entry hentry rfl
    have hlisted := (h.threat owner entry.1 entry.2).mp (mem_entriesOf hentry)
    rw [hends] at hlisted
    exact hx (Prod.mk.inj (some.inj hlisted)).1

theorem spares_unregisterAndFree {id : RefId} (hid : w.ledger.ends id = some (a, b)) :
    Spares w (w.unregisterAndFree ops id) (· ≠ a) := by
  obtain ⟨ref, href, hpair⟩ := map_eq_some_iff.mp hid
  intro i x y hends hx
  have hne : i ≠ id := by
    rintro rfl
    rw [hid] at hends
    exact hx (Prod.mk.inj (some.inj hends)).1.symm
  have hlist : (w.purgeThreatListRef ops ref.owner ref.victim).threatRefs = w.threatRefs := by
    unfold purgeThreatListRef
    split <;> rfl
  simp only [unregisterAndFree, href, deleteThreatRef, purgeThreatenedByMeRef, modifyUnit, hlist,
    getElem?_erase_eq, if_neg hne]

theorem spares_clearThreat (h : w.ledger.ThreatLinked) (owner target : ObjectGuid) :
    Spares w (w.clearThreat ops env owner target) (· ≠ owner) := by
  unfold clearThreat
  split
  · exact .of_eq rfl _
  · next id hid =>
    have hends := (h.threat owner target id).mp hid
    have hfree := spares_unregisterAndFree ops hends
    have hlinked := h.unregister hends
    rw [← ledger_unregisterAndFree ops w hends] at hlinked
    simp only [clearThreatRef]
    split
    · exact hfree.trans (spares_updateVictim ops env hlinked owner)
    · exact hfree

end

/-! ### Clearing threat -/

/-- Exactly the threat between the units of `gone` is cleared. -/
structure Clears (w w' : World Heap) (gone : ObjectGuid → ObjectGuid → Prop) : Prop where
  consistent : w'.ledger.Consistent
  combat : w'.ledger.combat = w.ledger.combat
  reference : w'.ledger.reference = w.ledger.reference
  threat_of_gone : ∀ x y, gone x y → w'.ledger.threat x y = none
  threat_of_not_gone : ∀ x y, ¬ gone x y → w'.ledger.threat x y = w.ledger.threat x y

section

variable {w w' w'' : World Heap} {gone gone' : ObjectGuid → ObjectGuid → Prop}

theorem Clears.refl (h : w.ledger.Consistent) : Clears w w fun _ _ => False :=
  ⟨h, rfl, rfl, fun _ _ => False.elim, fun _ _ _ => rfl⟩

theorem Clears.trans (h : Clears w w' gone) (h' : Clears w' w'' gone') :
    Clears w w'' fun x y => gone x y ∨ gone' x y := by
  refine ⟨h'.consistent, h'.combat.trans h.combat, h'.reference.trans h.reference, ?_, ?_⟩
  · intro x y hgone
    by_cases hlater : gone' x y
    · exact h'.threat_of_gone x y hlater
    · rw [h'.threat_of_not_gone x y hlater]
      exact h.threat_of_gone x y (hgone.resolve_right hlater)
  · intro x y hnot
    rw [not_or] at hnot
    rw [h'.threat_of_not_gone x y hnot.2, h.threat_of_not_gone x y hnot.1]

theorem Clears.congr (h : Clears w w' gone) (hsame : ∀ x y, gone' x y ↔ gone x y) :
    Clears w w' gone' := by
  have heq : gone' = gone := by
    ext x y
    exact hsame x y
  exact heq ▸ h

/-- It does not matter whether more is said to be gone where no threat was. -/
theorem Clears.of_none (h : Clears w w' gone) (hle : ∀ x y, gone x y → gone' x y)
    (hnone : ∀ x y, gone' x y → gone x y ∨ w.ledger.threat x y = none) : Clears w w' gone' := by
  refine ⟨h.consistent, h.combat, h.reference, ?_, ?_⟩
  · intro x y hgone
    by_cases hold : gone x y
    · exact h.threat_of_gone x y hold
    · rw [h.threat_of_not_gone x y hold]
      exact (hnone x y hgone).resolve_left hold
  · intro x y hnot
    exact h.threat_of_not_gone x y fun hgone => hnot (hle x y hgone)

/-- In a consistent ledger both sides of a threat reference agree. -/
theorem threatened_eq {l : Ledger} (h : l.ThreatLinked) (a b : ObjectGuid) :
    l.threatened b a = l.threat a b := by
  ext id : 1
  rw [h.threatened, h.threat]

variable (ops : HeapOps Heap) (env : Surroundings)

theorem threat_clear {l : Ledger} (a b x y : ObjectGuid) :
    (l.clear a b).threat x y = if x = a ∧ y = b then none else l.threat x y := by
  unfold Ledger.clear
  split
  · next hnone =>
    split
    · next heq => rw [heq.1, heq.2, hnone]
    · rfl
  · rfl

theorem clears_of_ledger (h : w.ledger.Consistent) (hledger : w'.ledger = w.ledger.clear a b) :
    Clears w w' fun x y => x = a ∧ y = b := by
  obtain ⟨hcombat, hreference, -, -⟩ := Ledger.clear_combat w.ledger a b
  constructor
  · rw [hledger]
    exact h.clear a b
  · rw [hledger, hcombat]
  · rw [hledger, hreference]
  · intro x y hgone
    rw [hledger, threat_clear, if_pos hgone]
  · intro x y hnot
    rw [hledger, threat_clear, if_neg hnot]

/-- A loop over threat entries, each round of which clears the threat its entry stands for. -/
theorem clears_foldl (f : World Heap → ObjectGuid × RefId → World Heap)
    {pair : ObjectGuid → ObjectGuid × ObjectGuid} (hpair : Function.Injective pair)
    (hf : ∀ w entry, w.ledger.Consistent →
      w.ledger.threat (pair entry.1).1 (pair entry.1).2 = some entry.2 →
      Clears w (f w entry) (fun x y => x = (pair entry.1).1 ∧ y = (pair entry.1).2) ∧
        Spares w (f w entry) (· ≠ (pair entry.1).1))
    (entries : List (ObjectGuid × RefId)) (hkeys : entries.Pairwise fun a b => a.1 ≠ b.1)
    (w : World Heap) (h : w.ledger.Consistent)
    (hheld : ∀ entry ∈ entries, w.ledger.threat (pair entry.1).1 (pair entry.1).2 = some entry.2) :
    Clears w (entries.foldl f w)
        (fun x y => ∃ entry ∈ entries, x = (pair entry.1).1 ∧ y = (pair entry.1).2) ∧
      Spares w (entries.foldl f w) (fun x => ∀ entry ∈ entries, x ≠ (pair entry.1).1) := by
  induction entries generalizing w with
  | nil => exact ⟨(Clears.refl h).congr fun x y => by simp, .of_eq rfl _⟩
  | cons entry rest ih =>
    rw [List.pairwise_cons] at hkeys
    rw [List.forall_mem_cons] at hheld
    obtain ⟨hclears, hspares⟩ := hf w entry h hheld.1
    -- the other entries stand for other threat
    have hheld' : ∀ other ∈ rest, (f w entry).ledger.threat (pair other.1).1 (pair other.1).2 =
        some other.2 := by
      intro other hother
      rw [hclears.threat_of_not_gone]
      · exact hheld.2 other hother
      · intro heq
        exact hkeys.1 other hother (hpair (Prod.ext heq.1 heq.2)).symm
    obtain ⟨hrest, hspares'⟩ := ih hkeys.2 (f w entry) hclears.consistent hheld'
    constructor
    · exact (hclears.trans hrest).congr fun x y => by simp
    · apply Spares.trans
      · exact hspares.mono fun x hx => hx entry List.mem_cons_self
      · exact hspares'.mono fun x hx other hother => hx other (List.mem_cons_of_mem entry hother)

/-- No unit has threat for itself. -/
theorem threat_self (h : w.ledger.Consistent) (a : ObjectGuid) : w.ledger.threat a a = none := by
  rw [eq_none_iff_forall_ne_some]
  intro id hid
  obtain ⟨i, ref, href, hbetween⟩ := h.covered id a a ((h.threatLinked.threat a a id).mp hid)
  apply h.combatLinked.distinct i ref href
  unfold CombatReference.Between at hbetween
  grind

theorem owner_threatRef (h : w.ledger.ThreatLinked) {id : RefId}
    (hid : w.ledger.threat a b = some id) : (w.threatRef id).owner = a := by
  obtain ⟨ref, href, hpair⟩ := map_eq_some_iff.mp ((h.threat a b id).mp hid)
  rw [threatRef, Std.ExtTreeMap.getD_eq_getD_getElem?, href, getD_some]
  exact (Prod.mk.inj hpair).1

variable (owner : ObjectGuid) (unitFilter : UnitFilter)

/-- Threat that accepted units have for the owner goes, and nothing else. -/
theorem clears_removeMeFromThreatLists (h : w.ledger.Consistent) :
    Clears w (w.removeMeFromThreatLists ops env owner unitFilter)
        (fun x y => y = owner ∧ accepts unitFilter x = true) ∧
      Spares w (w.removeMeFromThreatLists ops env owner unitFilter)
        (fun x => accepts unitFilter x = false ∨ x = owner) := by
  have hthreatened := threatened_eq h.threatLinked
  have hpair : Function.Injective fun key : ObjectGuid => (key, owner) :=
    fun _ _ heq => (Prod.mk.inj heq).1
  have hentry {entry : ObjectGuid × RefId}
      (hentry : entry ∈ entriesOf env owner .threatenedByMe (w.units owner).threatenedByMe) :
      w.ledger.threat entry.1 owner = some entry.2 := by
    rw [← hthreatened]
    exact mem_entriesOf hentry
  obtain ⟨hclears, hspares⟩ := clears_foldl
    (fun w entry => w.clearThreat ops env (w.threatRef entry.2).owner owner) hpair (by
      intro v entry hv hheld
      rw [owner_threatRef hv.threatLinked hheld]
      refine ⟨clears_of_ledger hv ?_, spares_clearThreat ops env hv.threatLinked _ owner⟩
      exact ledger_clearThreat ops env v hv.threatLinked entry.1 owner)
    ((entriesOf env owner .threatenedByMe (w.units owner).threatenedByMe).filter fun entry =>
      accepts unitFilter (w.threatRef entry.2).owner)
    ((pairwise_entriesOf env owner _ _).filter _) w h
    fun entry hmem => hentry (List.mem_filter.mp hmem).1
  have haccepted {entry : ObjectGuid × RefId} (hmem : entry ∈ (entriesOf env owner
      .threatenedByMe (w.units owner).threatenedByMe).filter fun entry =>
        accepts unitFilter (w.threatRef entry.2).owner) : accepts unitFilter entry.1 = true := by
    obtain ⟨hin, haccepts⟩ := List.mem_filter.mp hmem
    rwa [owner_threatRef h.threatLinked (hentry hin)] at haccepts
  constructor
  · apply hclears.of_none
    · rintro x y ⟨entry, hmem, rfl, rfl⟩
      exact ⟨rfl, haccepted hmem⟩
    · rintro x y ⟨rfl, haccepts⟩
      cases hthreat : w.ledger.threat x y with
      | none => exact .inr rfl
      | some id =>
        refine .inl ⟨(x, id), List.mem_filter.mpr ⟨?_, ?_⟩, rfl, rfl⟩
        · rw [mem_entriesOf_iff]
          exact (hthreatened x y).trans hthreat
        · rwa [owner_threatRef h.threatLinked hthreat]
  · apply hspares.mono
    rintro x hx entry hmem rfl
    rcases hx with hx | hx
    · rw [haccepted hmem] at hx
      nomatch hx
    · have hself := hentry (List.mem_filter.mp hmem).1
      rw [hx, threat_self h] at hself
      nomatch hself

/-- The owner's own threat list is cleared whole. -/
theorem clears_clearAllThreat (h : w.ledger.Consistent) :
    Clears w (w.clearAllThreat ops env owner) (fun x _ => x = owner) ∧
      Spares w (w.clearAllThreat ops env owner) (· ≠ owner) := by
  have hpair : Function.Injective fun key : ObjectGuid => (owner, key) :=
    fun _ _ heq => (Prod.mk.inj heq).2
  obtain ⟨hclears, hspares⟩ := clears_foldl
    (fun w entry => w.unregisterAndFree ops entry.2) hpair (by
      intro v entry hv hentry
      have hends := (hv.threatLinked.threat owner entry.1 entry.2).mp hentry
      refine ⟨clears_of_ledger hv ?_, spares_unregisterAndFree ops hends⟩
      rw [ledger_unregisterAndFree ops v hends, Ledger.clear, hentry])
    (entriesOf env owner .myThreatListEntries (w.units owner).myThreatListEntries)
    (pairwise_entriesOf env owner _ _) w h fun entry hentry => mem_entriesOf hentry
  constructor
  · apply hclears.of_none
    · rintro x y ⟨entry, -, rfl, -⟩
      rfl
    · rintro x y rfl
      cases hthreat : w.ledger.threat x y with
      | none => exact .inr rfl
      | some id => exact .inl ⟨(y, id), (mem_entriesOf_iff env _ _ _ (y, id)).mpr hthreat, rfl, rfl⟩
  · exact hspares.mono fun x hx entry _ => hx

end

/-! ### Ending combat -/

theorem combat_symm {l : Ledger} (h : l.CombatLinked) (pvp : Bool) (a b : ObjectGuid) :
    l.combat pvp a b = l.combat pvp b a := by
  ext id : 1
  rw [h.combat, h.combat]
  constructor
  · rintro ⟨ref, href, hkind, hbetween⟩
    exact ⟨ref, href, hkind, hbetween.symm⟩
  · rintro ⟨ref, href, hkind, hbetween⟩
    exact ⟨ref, href, hkind, hbetween.symm⟩

/-- Exactly the PvE combat of the owner with the units of `gone` is ended, where there is no
threat between them. -/
structure EndsCombat (w w' : World Heap) (owner : ObjectGuid) (gone : ObjectGuid → Prop) :
    Prop where
  consistent : w'.ledger.Consistent
  combat_of_gone : ∀ key, gone key → w'.ledger.combat false owner key = none
  combat_of_not_gone : ∀ pvp x y, ¬ (pvp = false ∧ (x = owner ∧ gone y ∨ y = owner ∧ gone x)) →
    w'.ledger.combat pvp x y = w.ledger.combat pvp x y
  reference : ∀ id ref, w.ledger.reference id = some ref →
    (∀ key, gone key → ref.isPvP = false → ¬ ref.Between owner key) →
    w'.ledger.reference id = some ref
  threat : w'.ledger.threat = w.ledger.threat
  threatRefs : w'.threatRefs = w.threatRefs

section

variable {w w' w'' : World Heap} {owner : ObjectGuid} {gone gone' : ObjectGuid → Prop}

theorem EndsCombat.refl (h : w.ledger.Consistent) : EndsCombat w w owner fun _ => False :=
  ⟨h, fun _ => False.elim, fun _ _ _ _ => rfl, fun _ _ href _ => href, rfl, rfl⟩

theorem EndsCombat.trans (h : EndsCombat w w' owner gone) (h' : EndsCombat w' w'' owner gone') :
    EndsCombat w w'' owner fun key => gone key ∨ gone' key := by
  refine ⟨h'.consistent, ?_, ?_, ?_, h'.threat.trans h.threat, h'.threatRefs.trans h.threatRefs⟩
  · intro key hgone
    by_cases hlater : gone' key
    · exact h'.combat_of_gone key hlater
    · by_cases hself : owner = key ∧ gone' owner
      · obtain ⟨rfl, hown⟩ := hself
        exact h'.combat_of_gone owner hown
      · rw [h'.combat_of_not_gone]
        · exact h.combat_of_gone key (hgone.resolve_right hlater)
        · rintro ⟨-, ⟨-, hkey⟩ | ⟨hkey, hown⟩⟩
          · exact hlater hkey
          · exact hself ⟨hkey.symm, hown⟩
  · intro pvp x y hnot
    rw [h'.combat_of_not_gone, h.combat_of_not_gone]
    · grind
    · grind
  · intro id ref href hkeep
    apply h'.reference id ref
    · exact h.reference id ref href fun key hkey => hkeep key (.inl hkey)
    · exact fun key hkey => hkeep key (.inr hkey)

theorem EndsCombat.congr (h : EndsCombat w w' owner gone) (hsame : ∀ key, gone' key ↔ gone key) :
    EndsCombat w w' owner gone' := by
  have heq : gone' = gone := by
    ext key
    exact hsame key
  exact heq ▸ h

/-- It does not matter whether more is said to be gone where no combat was. -/
theorem EndsCombat.of_none (h : EndsCombat w w' owner gone) (hle : ∀ key, gone key → gone' key)
    (hnone : ∀ key, gone' key → gone key ∨ w.ledger.combat false owner key = none) :
    EndsCombat w w' owner gone' := by
  refine ⟨h.consistent, ?_, ?_, ?_, h.threat, h.threatRefs⟩
  · intro key hgone
    by_cases hold : gone key
    · exact h.combat_of_gone key hold
    by_cases hself : key = owner ∧ gone owner
    · obtain ⟨rfl, hown⟩ := hself
      exact h.combat_of_gone key hown
    · rw [h.combat_of_not_gone]
      · exact (hnone key hgone).resolve_left hold
      · rintro ⟨-, ⟨-, hkey⟩ | hown⟩
        · exact hold hkey
        · exact hself hown
  · intro pvp x y hnot
    apply h.combat_of_not_gone
    rintro ⟨hkind, ⟨hx, hy⟩ | ⟨hy, hx⟩⟩
    · exact hnot ⟨hkind, .inl ⟨hx, hle y hy⟩⟩
    · exact hnot ⟨hkind, .inr ⟨hy, hle x hx⟩⟩
  · intro id ref href hkeep
    exact h.reference id ref href fun key hkey => hkeep key (hle key hkey)

variable (ops : HeapOps Heap) (env : Surroundings)

theorem clearThreat_of_none (h : w.ledger.threat a b = none) : w.clearThreat ops env a b = w := by
  rw [clearThreat, show (w.units a).myThreatListEntries[b]? = none from h]

theorem threatRefs_updateOwnerCombatState (w : World Heap) (a : ObjectGuid) :
    (w.updateOwnerCombatState a).threatRefs = w.threatRefs := by
  simp only [updateOwnerCombatState]
  split
  · rfl
  · rfl

/-- One PvE reference is ended between units without threat for each other. -/
theorem endsCombat_endCombat (h : w.ledger.Consistent) {key : ObjectGuid} {id : RefId}
    (hheld : w.ledger.combat false owner key = some id)
    (hthreat : w.ledger.threat owner key = none) (hthreat' : w.ledger.threat key owner = none) :
    EndsCombat w (w.endCombat ops env id) owner (· = key) := by
  obtain ⟨ref, href, hkind, hbetween⟩ := (h.combatLinked.combat false owner key id).mp hheld
  have hdistinct := h.combatLinked.distinct id ref href
  have hnone : w.ledger.threat ref.first ref.second = none ∧
      w.ledger.threat ref.second ref.first = none := by
    rcases hbetween with ⟨rfl, rfl⟩ | ⟨rfl, rfl⟩
    · exact ⟨hthreat, hthreat'⟩
    · exact ⟨hthreat', hthreat⟩
  have hclear : (w.ledger.clear ref.first ref.second).clear ref.second ref.first = w.ledger := by
    have hfirst : w.ledger.clear ref.first ref.second = w.ledger := by
      rw [Ledger.clear, hnone.1]
    rw [hfirst, Ledger.clear, hnone.2]
  have hledger := ledger_endCombat ops env w h.threatLinked href (h.combatLinked.pointsTo href)
  have hcombat (pvp : Bool) (x y : ObjectGuid) : (w.endCombat ops env id).ledger.combat pvp x y =
      if pvp = false ∧ ref.Between x y then none else w.ledger.combat pvp x y := by
    rw [hledger, Ledger.endCombat, hclear, ← hkind]
    rfl
  have hsame (x y : ObjectGuid) :
      ref.Between x y ↔ x = owner ∧ y = key ∨ y = owner ∧ x = key := by
    unfold CombatReference.Between at hbetween ⊢
    grind
  constructor
  · exact consistent_endCombat ops env h id
  · rintro _ rfl
    rw [hcombat, if_pos ⟨rfl, hbetween⟩]
  · intro pvp x y hnot
    rw [hcombat, if_neg]
    rw [hsame]
    exact hnot
  · intro i r hr hkeep
    have hne : i ≠ id := by
      rintro rfl
      rw [href] at hr
      obtain rfl := some.inj hr
      exact hkeep key rfl hkind hbetween
    rw [hledger, Ledger.endCombat, hclear]
    exact (Function.update_of_ne hne _ _).trans hr
  · rw [hledger, Ledger.endCombat, hclear]
    rfl
  · have hlookup : w.combatRefs[id]? = some ref := href
    simp only [endCombat, hlookup, clearThreat_of_none ops env hnone.1,
      clearThreat_of_none ops env hnone.2, deleteCombatRef, threatRefs_updateOwnerCombatState]
    rfl

/-- The loop over PvE references of the owner to units without threat for it or from it. -/
theorem endsCombat_foldl (entries : List (ObjectGuid × RefId))
    (hkeys : entries.Pairwise fun a b => a.1 ≠ b.1) (w : World Heap) (h : w.ledger.Consistent)
    (hheld : ∀ entry ∈ entries, w.Held owner false entry)
    (hthreat : ∀ entry ∈ entries,
      w.ledger.threat owner entry.1 = none ∧ w.ledger.threat entry.1 owner = none) :
    EndsCombat w (entries.foldl (fun w entry => w.endCombat ops env entry.2) w) owner
      fun key => ∃ entry ∈ entries, key = entry.1 := by
  induction entries generalizing w with
  | nil => exact (EndsCombat.refl h).congr fun key => by simp
  | cons entry rest ih =>
    rw [List.pairwise_cons] at hkeys
    rw [List.forall_mem_cons] at hheld hthreat
    have hends := endsCombat_endCombat ops env h hheld.1 hthreat.1.1 hthreat.1.2
    have hdistinct : owner ≠ entry.1 := by
      obtain ⟨ref, href, -, hbetween⟩ := (h.combatLinked.combat false owner entry.1 _).mp hheld.1
      have hne := h.combatLinked.distinct _ ref href
      rintro heq
      rcases hbetween with ⟨hfirst, hsecond⟩ | ⟨hfirst, hsecond⟩
      · exact hne (hfirst.trans (heq.trans hsecond.symm))
      · exact hne (hfirst.trans (heq.symm.trans hsecond.symm))
    have hheld' : ∀ other ∈ rest, (w.endCombat ops env entry.2).Held owner false other := by
      intro other hother
      rw [Held, hends.combat_of_not_gone]
      · exact hheld.2 other hother
      · rintro ⟨-, ⟨-, heq⟩ | ⟨-, heq⟩⟩
        · exact hkeys.1 other hother heq.symm
        · exact hdistinct heq
    have hrest := ih hkeys.2 (w.endCombat ops env entry.2) hends.consistent hheld' (by
      rw [hends.threat]
      exact hthreat.2)
    exact (hends.trans hrest).congr fun key => by simp

/-- The other unit of a reference held under a key is the key. -/
theorem getOther_of_held (h : w.ledger.Consistent) {pvp : Bool} {entry : ObjectGuid × RefId}
    (hheld : w.Held owner pvp entry) : (w.combatRef entry.2).getOther owner = entry.1 := by
  obtain ⟨ref, href, -, hbetween⟩ := (h.combatLinked.combat pvp owner entry.1 entry.2).mp hheld
  have hdistinct := h.combatLinked.distinct entry.2 ref href
  rw [combatRef_eq href, CombatReference.getOther]
  rcases hbetween with ⟨hfirst, hsecond⟩ | ⟨hfirst, hsecond⟩
  · rw [if_pos hfirst, hsecond]
  · rw [if_neg, hfirst]
    rintro heq
    exact hdistinct (heq.trans hsecond.symm)

/-- PvE combat with accepted units ends when there is no threat left between them. -/
theorem endsCombat_endCombatWith (h : w.ledger.Consistent) (owner : ObjectGuid)
    (unitFilter : UnitFilter)
    (hthreat : ∀ other, accepts unitFilter other = true →
      w.ledger.threat owner other = none ∧ w.ledger.threat other owner = none) :
    EndsCombat w (w.endCombatWith ops env owner false unitFilter) owner
      fun other => accepts unitFilter other = true := by
  have hheld : ∀ entry ∈ entriesOf env owner (refsName false) ((w.units owner).refs false),
      w.Held owner false entry := fun entry hentry => mem_entriesOf hentry
  have haccepted {entry : ObjectGuid × RefId}
      (hmem : entry ∈ (entriesOf env owner (refsName false) ((w.units owner).refs false)).filter
        fun entry => accepts unitFilter ((w.combatRef entry.2).getOther owner)) :
      w.Held owner false entry ∧ accepts unitFilter entry.1 = true := by
    obtain ⟨hin, haccepts⟩ := List.mem_filter.mp hmem
    refine ⟨hheld entry hin, ?_⟩
    rwa [getOther_of_held h (hheld entry hin)] at haccepts
  have hends := endsCombat_foldl ops env _ ((pairwise_entriesOf env owner _ _).filter
      fun entry => accepts unitFilter ((w.combatRef entry.2).getOther owner)) w h
    (fun entry hmem => (haccepted hmem).1) fun entry hmem => hthreat entry.1 (haccepted hmem).2
  apply hends.of_none
  · rintro _ ⟨entry, hmem, rfl⟩
    exact (haccepted hmem).2
  · intro key haccepts
    cases hcombat : w.ledger.combat false owner key with
    | none => exact .inr rfl
    | some id =>
      refine .inl ⟨(key, id), List.mem_filter.mpr ⟨?_, ?_⟩, rfl⟩
      · rw [mem_entriesOf_iff]
        exact hcombat
      · have hkey : w.Held owner false (key, id) := hcombat
        rwa [getOther_of_held h hkey]

end

/-! ### The whole call -/

/-- No threat from the first unit to the second. -/
def NoThreat (w : World Heap) (a b : ObjectGuid) : Prop :=
  (w.units a).myThreatListEntries[b]? = none ∧ (w.units b).threatenedByMe[a]? = none

/-- The threat from the first unit to the second is the same, entries and object. -/
structure SameThreat (w w' : World Heap) (a b : ObjectGuid) : Prop where
  listed : (w'.units a).myThreatListEntries[b]? = (w.units a).myThreatListEntries[b]?
  threatened : (w'.units b).threatenedByMe[a]? = (w.units b).threatenedByMe[a]?
  object : ∀ id, (w.units a).myThreatListEntries[b]? = some id →
    w'.threatRefs[id]? = w.threatRefs[id]?

/-- The combat between two units is the same, entries and object. -/
structure SameCombat (w w' : World Heap) (a b : ObjectGuid) : Prop where
  first : ∀ pvp, ((w'.units a).refs pvp)[b]? = ((w.units a).refs pvp)[b]?
  second : ∀ pvp, ((w'.units b).refs pvp)[a]? = ((w.units b).refs pvp)[a]?
  object : ∀ pvp id, ((w.units a).refs pvp)[b]? = some id → w'.combatRefs[id]? = w.combatRefs[id]?

/-- A call ended what the owner has with accepted units, PvE combat and threat, and left alone
what it has with rejected ones. -/
structure Confined (w w' : World Heap) (owner : ObjectGuid) (unitFilter : UnitFilter) :
    Prop where
  no_pve : ∀ other, accepts unitFilter other = true →
    (w'.units owner).pveRefs[other]? = none ∧ (w'.units other).pveRefs[owner]? = none
  no_threat : ∀ other, accepts unitFilter other = true →
    w'.NoThreat owner other ∧ w'.NoThreat other owner
  same_combat : ∀ other, accepts unitFilter other = false → SameCombat w w' owner other
  same_threat : ∀ other, accepts unitFilter other = false →
    SameThreat w w' owner other ∧ SameThreat w w' other owner

section

variable {w w' : World Heap}

theorem noThreat_of_ledger (h : w.ledger.ThreatLinked) (hnone : w.ledger.threat a b = none) :
    w.NoThreat a b :=
  ⟨hnone, (threatened_eq h a b).trans hnone⟩

theorem sameThreat_of_ledger (h : w.ledger.ThreatLinked) (h' : w'.ledger.ThreatLinked)
    (hsame : w'.ledger.threat a b = w.ledger.threat a b)
    (hobject : ∀ id, w.ledger.threat a b = some id → w'.threatRefs[id]? = w.threatRefs[id]?) :
    SameThreat w w' a b := by
  refine ⟨hsame, ?_, hobject⟩
  have hthreatened : w'.ledger.threatened b a = w.ledger.threatened b a := by
    rw [threatened_eq h', threatened_eq h, hsame]
  exact hthreatened

variable (ops : HeapOps Heap) (env : Surroundings) (owner : ObjectGuid) (unitFilter : UnitFilter)

/-- What `EndAllPvECombat` does with threat: threat of accepted units for the owner goes, and
all threat of the owner. -/
theorem clears_endAllPvECombat (h : w.ledger.Consistent) :
    ∃ w', Clears w w' (fun x y => y = owner ∧ accepts unitFilter x = true ∨ x = owner) ∧
      Spares w w' (fun x => accepts unitFilter x = false ∧ x ≠ owner) ∧
      EndsCombat w' (w.endAllPvECombat ops env owner unitFilter) owner
        fun other => accepts unitFilter other = true := by
  obtain ⟨hremove, hspares⟩ := clears_removeMeFromThreatLists ops env owner unitFilter h
  obtain ⟨hclear, hspares'⟩ := clears_clearAllThreat ops env owner hremove.consistent
  have hboth := hremove.trans hclear
  refine ⟨_, hboth, ?_, ?_⟩
  · apply Spares.trans
    · exact hspares.mono fun x hx => .inl hx.1
    · exact hspares'.mono fun x hx => hx.2
  · apply endsCombat_endCombatWith ops env hboth.consistent
    intro other haccepts
    exact ⟨hboth.threat_of_gone owner other (.inr rfl),
      hboth.threat_of_gone other owner (.inl ⟨rfl, haccepts⟩)⟩

/-- Combat with rejected units is the same. -/
theorem sameCombat_endAllPvECombat (h : w.ledger.Consistent) {other : ObjectGuid}
    (hother : accepts unitFilter other = false) :
    SameCombat w (w.endAllPvECombat ops env owner unitFilter) owner other := by
  obtain ⟨w', hclears, -, hends⟩ := clears_endAllPvECombat ops env owner unitFilter h
  have hrejected : ¬ accepts unitFilter other = true := by
    rw [hother]
    exact Bool.false_ne_true
  have hpair (pvp : Bool) : ¬ (pvp = false ∧ (owner = owner ∧ accepts unitFilter other = true ∨
      other = owner ∧ accepts unitFilter owner = true)) := by
    rintro ⟨-, ⟨-, haccepts⟩ | ⟨rfl, haccepts⟩⟩
    · exact hrejected haccepts
    · exact hrejected haccepts
  have hfirst (pvp : Bool) : (w.endAllPvECombat ops env owner unitFilter).ledger.combat pvp owner
      other = w.ledger.combat pvp owner other := by
    rw [hends.combat_of_not_gone pvp owner other (hpair pvp), hclears.combat]
  constructor
  · exact hfirst
  · intro pvp
    have hsecond : (w.endAllPvECombat ops env owner unitFilter).ledger.combat pvp other owner =
        w.ledger.combat pvp other owner := by
      rw [combat_symm hends.consistent.combatLinked, hfirst, combat_symm h.combatLinked]
    exact hsecond
  · intro pvp id hid
    obtain ⟨ref, href, -, hbetween⟩ := (h.combatLinked.combat pvp owner other id).mp hid
    have hdistinct := h.combatLinked.distinct id ref href
    have href' : w'.ledger.reference id = some ref := by rw [hclears.reference, href]
    have hkept := hends.reference id ref href' (by
      rintro key hkey - hbetween'
      have hsame : key = other := by
        unfold CombatReference.Between at hbetween hbetween'
        grind
      exact hrejected (hsame ▸ hkey))
    exact hkept.trans href.symm

/-- `EndAllPvECombat` is confined to its filter if and only if the filter accepts all units on
the owner's own threat list. -/
theorem confined_iff (h : w.ledger.Consistent) :
    Confined w (w.endAllPvECombat ops env owner unitFilter) owner unitFilter ↔
      ∀ other ∈ (w.units owner).myThreatListEntries, accepts unitFilter other = true := by
  obtain ⟨w', hclears, hspares, hends⟩ := clears_endAllPvECombat ops env owner unitFilter h
  have hlinked := hends.consistent.threatLinked
  have hthreat (x y : ObjectGuid)
      (hgone : y = owner ∧ accepts unitFilter x = true ∨ x = owner) :
      (w.endAllPvECombat ops env owner unitFilter).ledger.threat x y = none := by
    rw [hends.threat]
    exact hclears.threat_of_gone x y hgone
  constructor
  · intro hconfined other hlisted
    rw [mem_myThreatListEntries] at hlisted
    obtain ⟨id, hid⟩ := hlisted
    by_contra hrejected
    rw [Bool.not_eq_true] at hrejected
    have hkept := (hconfined.same_threat other hrejected).1.listed.trans hid
    exact nomatch (hthreat owner other (.inr rfl)).symm.trans hkept
  · intro hlisted
    constructor
    · intro other haccepts
      have hnone := hends.combat_of_gone other haccepts
      refine ⟨hnone, ?_⟩
      rw [combat_symm hends.consistent.combatLinked] at hnone
      exact hnone
    · intro other haccepts
      exact ⟨noThreat_of_ledger hlinked (hthreat owner other (.inr rfl)),
        noThreat_of_ledger hlinked (hthreat other owner (.inl ⟨rfl, haccepts⟩))⟩
    · intro other hrejected
      exact sameCombat_endAllPvECombat ops env owner unitFilter h hrejected
    · intro other hrejected
      -- the owner has no threat for rejected units
      have hnone : w.ledger.threat owner other = none := by
        rw [eq_none_iff_forall_ne_some]
        intro id hid
        have haccepts := hlisted other ((mem_myThreatListEntries w owner other).mpr ⟨id, hid⟩)
        rw [hrejected] at haccepts
        nomatch haccepts
      constructor
      · apply sameThreat_of_ledger h.threatLinked hlinked
        · rw [hnone, hthreat owner other (.inr rfl)]
        · intro id hid
          rw [hnone] at hid
          nomatch hid
      by_cases hself : other = owner
      · subst hself
        apply sameThreat_of_ledger h.threatLinked hlinked
        · rw [hnone, hthreat other other (.inr rfl)]
        · intro id hid
          rw [hnone] at hid
          nomatch hid
      · apply sameThreat_of_ledger h.threatLinked hlinked
        · rw [hends.threat]
          apply hclears.threat_of_not_gone
          rintro (⟨-, haccepts⟩ | heq)
          · rw [hrejected] at haccepts
            nomatch haccepts
          · exact hself heq
        · intro id hid
          rw [hends.threatRefs]
          exact hspares id other owner ((h.threatLinked.threat other owner id).mp hid)
            ⟨hrejected, hself⟩

end

end World

/-- In every state reached by threat and combat calls, `EndAllPvECombat` is confined to its
filter if and only if the filter accepts all units on the owner's own threat list. -/
theorem endAllPvECombat_confined_iff (ops : HeapOps Heap) (canHaveThreatList : ObjectGuid → Bool)
    (events : List (Surroundings × ThreatCall)) (env : Surroundings) (owner : ObjectGuid)
    (unitFilter : World.UnitFilter) :
    World.Confined (threatRun ops canHaveThreatList events)
        ((threatRun ops canHaveThreatList events).endAllPvECombat ops env owner unitFilter) owner
        unitFilter ↔
      ∀ other ∈ ((threatRun ops canHaveThreatList events).units owner).myThreatListEntries,
        World.accepts unitFilter other = true :=
  World.confined_iff ops env owner unitFilter (consistent_threatRun ops canHaveThreatList events)

/-- A creature that ends combat with nobody loses its threat for everybody. -/
theorem not_confined_rejectAll :
    ¬ ∀ (ops : HeapOps Unit) (events : List (Surroundings × ThreatCall)),
      World.Confined (threatRun ops (fun _ => true) events)
        ((threatRun ops (fun _ => true) events).endAllPvECombat ops {} 1 (some fun _ => false)) 1
        (some fun _ => false) := by
  intro h
  let ops : HeapOps Unit := ⟨(), fun _ _ _ => (), fun _ _ _ => (), fun _ _ _ => (),
    fun _ _ _ => (), fun _ _ => []⟩
  obtain ⟨events, hlisted⟩ := exists_listed_threatRun ops (fun _ => true) {} 1 2 rfl (by decide)
  have hconfined := h ops events
  rw [World.confined_iff ops {} 1 _ (consistent_threatRun ops _ events)] at hconfined
  exact Bool.false_ne_true (hconfined 2 hlisted)

end TrinityCore.Combat
